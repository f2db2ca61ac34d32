import Mossward.L5Concurrency.Login

/-!
# Blocked logins

Once failed logins have blocked a throttle key, a login with that key should be
turned away until the block ends. Calls that passed their check before the block
may still record failures after it. Such a failure lengthens the block if it is
counted in the window of the row, with a clock reading that is not older than
the one that set the block. A failure after the window starts a new one, and
takes the block away while it is in force.

Results:
* `blocked_step`, `waiting_step`: what an undisturbed run keeps.
* `stepCall_attempts`, `login_block_holds`, `login_block_lifted`.
-/
namespace Mossward.L5.Login

open Table Run L1.Rfc3339 L2.Identity L2.LoginAttempts L2.Schema Small World List

variable {L : L2.Identity.Locale}

/-! ## Steps -/

section
variable {S : Service}

/-- **Result.** What a step does to the counts of failures. -/
theorem stepCall_attempts (S : Service) (x : Input) (r : Request) (sh : Shared L) (p : Phase) :
    (stepCall S x r sh p).1.attempts = sh.attempts ∨
    (∃ e now key keys, p = .recording e now (key :: keys) ∧
      (stepCall S x r sh p).1.attempts = recordLoginFailure S.keep sh.attempts key now.ns) ∨
    ∃ userID key keys, p = .clearing userID (key :: keys) ∧
      (stepCall S x r sh p).1.attempts = clearLoginFailures sh.attempts key := by
  cases p with
  | check keys =>
    left
    cases keys with
    | nil =>
      simp only [stepCall]
      split
      · rfl
      · split <;> rfl
    | cons key keys => rfl
  | query key now keys =>
    left
    simp only [stepCall]
    split <;> rfl
  | policy userID role =>
    left
    simp only [stepCall]
    split
    · split <;> rfl
    · rfl
  | factor userID f =>
    left
    show (stepFactor S x userID sh f).1.attempts = sh.attempts
    cases f with
    | secret passcode =>
      simp only [stepFactor]
      split
      · rfl
      · split <;> rfl
    | recoveryClock code => rfl
    | _ =>
      simp only [stepFactor]
      split <;> rfl
  | failing e => exact .inl rfl
  | recording e now keys =>
    cases keys with
    | nil => exact .inl rfl
    | cons key keys => exact .inr (.inl ⟨e, now, key, keys, rfl, rfl⟩)
  | clearing userID keys =>
    cases keys with
    | cons key keys => exact .inr (.inr ⟨userID, key, keys, rfl, rfl⟩)
    | nil =>
      left
      simp only [stepCall, finish]
      split
      · split <;> rfl
      · rfl
  | done result => exact .inl rfl

/-- A call is moved by its own steps only. -/
theorem call_step {w : World L} {i : Nat} {c : Call} (h : w.calls[i]? = some c) (op : Op) :
    ∃ c', (w.step S op).calls[i]? = some c' ∧ c'.request = c.request ∧ ((c' = c ∧ ∀ x, op ≠ .step i x) ∨
        ∃ x, op = .step i x ∧ c'.phase = (stepCall S x c.request w.shared c.phase).2) := by
  have hl : i < w.calls.length := (List.getElem?_eq_some_iff.mp h).1
  cases op with
  | tick now => exact ⟨c, h, rfl, .inl ⟨rfl, by simp⟩⟩
  | start r =>
    refine ⟨c, ?_, rfl, .inl ⟨rfl, by simp⟩⟩
    simp only [step]
    rw [getElem?_append_left hl]
    exact h
  | step j x =>
    by_cases hi : j = i
    · subst hi
      refine ⟨{ c with phase := (stepCall S x c.request w.shared c.phase).2 }, ?_, rfl, .inr ⟨x, rfl, rfl⟩⟩
      simp only [step]
      rw [h]
      exact getElem?_set_self hl
    refine ⟨c, ?_, rfl, .inl ⟨rfl, by simp [hi]⟩⟩
    simp only [step]
    split
    · exact h
    · rw [getElem?_set_ne hi]
      exact h

end

/-! ## An undisturbed block -/

/-- What the steps of a run ask: failures that are recorded for the key are
counted in its window and are not older than the block, the key is not cleared,
and the call `i` reads the clock for the key before the block ends. -/
def undisturbed (key : Key) (since blockEnd : Int) (i : Nat) (w : World L) : Op → Bool
  | .step j _ =>
    match w.calls[j]?.map Call.phase with
    | some (.recording _ now (key' :: _)) =>
      key' ≠ key || (since ≤ now.ns && inWindow w.shared.attempts key now.ns)
    | some (.clearing _ (key' :: _)) => key' ≠ key
    | some (.check (key' :: _)) => j ≠ i || key' ≠ key || w.shared.clock.ns < blockEnd
    | _ => true
  | _ => true

/-- The call has not passed its check of the key. -/
def Waiting (key : Key) (blockEnd : Int) : Phase → Prop
  | .check keys => key ∈ keys
  | .query key' now keys => (key' = key ∧ now.ns < blockEnd) ∨ key ∈ keys
  | .done result => result = .error .loginRateLimited
  | _ => False

/-- The steps until the end of the checks. -/
def remaining : Phase → Nat
  | .check keys => 2 * keys.length
  | .query _ _ keys => 2 * keys.length + 1
  | _ => 0

section
variable {S : Service} {key : Key} {since blockEnd : Int} {failures : Nat} {i : Nat} {w : World L}

theorem undisturbed_step {j : Nat} {x : Input} {c : Call} (h : undisturbed key since blockEnd i w (.step j x))
    (hg : w.calls[j]? = some c) :
    (∀ e now keys, c.phase = .recording e now (key :: keys) →
      since ≤ now.ns ∧ inWindow w.shared.attempts key now.ns) ∧
    (∀ uid keys, c.phase ≠ .clearing uid (key :: keys)) ∧
    ∀ keys, j = i → c.phase = .check (key :: keys) → w.shared.clock.ns < blockEnd := by
  unfold undisturbed at h
  simp only [hg, Option.map_some] at h
  refine ⟨?_, ?_, ?_⟩
  · intro e now keys hp
    rw [hp] at h
    simpa using h
  · intro uid keys hp
    rw [hp] at h
    simp at h
  · intro keys hj hp
    rw [hp] at h
    simpa [hj] using h

theorem blocked_step (op : Op) (he : blockEnd = S.keep (since + loginBlock failures))
    (ht : loginFailureThreshold ≤ failures) (h : Blocked w.shared.attempts key failures blockEnd)
    (hu : undisturbed key since blockEnd i w op) :
    Blocked (w.step S op).shared.attempts key failures blockEnd := by
  cases op with
  | tick now => exact h
  | start r => exact h
  | step j x =>
    simp only [step]
    split
    · exact h
    rename_i c hg
    obtain ⟨hr, hc, -⟩ := undisturbed_step hu hg
    rcases stepCall_attempts S x c.request w.shared c.phase with
      hsa | ⟨e, now, key', keys, hp, ha⟩ | ⟨uid, key', keys, hp, ha⟩
    · rw [hsa]
      exact h
    · rw [ha]
      by_cases hk : key = key'
      · subst hk
        obtain ⟨hs, hw⟩ := hr e now keys hp
        rw [he] at h ⊢
        exact h.record S.keep_mono ht hw hs
      · exact h.of_rowOf_eq (rowOf_record_other hk)
    · rw [ha]
      have hk : key ≠ key' := by
        intro heq
        exact hc uid keys (heq ▸ hp)
      exact h.of_rowOf_eq (rowOf_clear_other hk)

/-- A waiting call stays so, or is turned away. -/
theorem waiting_stepCall {x : Input} {r : Request} {sh : Shared L} {p : Phase}
    (hb : Blocked sh.attempts key failures blockEnd) (h : Waiting key blockEnd p)
    (hc : ∀ keys, p = .check (key :: keys) → sh.clock.ns < blockEnd) :
    Waiting key blockEnd (stepCall S x r sh p).2 ∧ remaining (stepCall S x r sh p).2 ≤ remaining p - 1 := by
  cases p with
  | check keys =>
    cases keys with
    | nil => cases h
    | cons key' keys =>
      refine ⟨?_, ?_⟩
      · rcases mem_cons.mp h with he | hm
        · exact .inl ⟨he.symm, hc keys (by rw [he])⟩
        · exact .inr hm
      · show 2 * keys.length + 1 ≤ 2 * (key' :: keys).length - 1
        simp only [length_cons]
        omega
  | query key' now keys =>
    simp only [stepCall]
    split
    · exact ⟨rfl, Nat.zero_le _⟩
    rename_i hp
    refine ⟨?_, ?_⟩
    · rcases h with ⟨rfl, hl⟩ | hm
      · exact absurd (hb.throttled hl) hp
      · exact hm
    · show 2 * keys.length ≤ 2 * keys.length + 1 - 1
      omega
  | done res => exact ⟨h, Nat.zero_le _⟩
  | _ => cases h

theorem Waiting.turnedAway {p : Phase} (h : Waiting key blockEnd p) (hn : remaining p = 0) :
    p = .done (.error .loginRateLimited) := by
  cases p with
  | check keys =>
    have hp : 0 < keys.length := length_pos_of_mem h
    simp only [remaining] at hn
    omega
  | query key' now keys =>
    simp only [remaining] at hn
    omega
  | done res => rw [show res = .error .loginRateLimited from h]
  | _ => cases h

/-- The number of steps that the call takes. -/
def stepsOf (i : Nat) (ops : List Op) : Nat :=
  ops.countP fun op => match op with
    | .step j _ => j = i
    | _ => false

theorem waiting_run {ops : List Op} {c : Call} (he : blockEnd = S.keep (since + loginBlock failures))
    (ht : loginFailureThreshold ≤ failures) (hb : Blocked w.shared.attempts key failures blockEnd)
    (hc : w.calls[i]? = some c) (hw : Waiting key blockEnd c.phase)
    (ho : Along (step S) (fun w op => undisturbed key since blockEnd i w op) w ops) :
    ∃ c', (run (step S) w ops).calls[i]? = some c' ∧ c'.request = c.request ∧ Waiting key blockEnd c'.phase ∧
      remaining c'.phase ≤ remaining c.phase - stepsOf i ops := by
  induction ops generalizing w c with
  | nil => exact ⟨c, hc, rfl, hw, by simp [stepsOf]⟩
  | cons op ops ih =>
    have hb' := blocked_step op he ht hb ho.1
    obtain ⟨c1, hc1, hre, hm⟩ := call_step (S := S) hc op
    rcases hm with ⟨rfl, hot⟩ | ⟨x, rfl, hp⟩
    · obtain ⟨c', hc', hr', hw', hr⟩ := ih hb' hc1 hw ho.2
      refine ⟨c', hc', hr', hw', ?_⟩
      have hs : stepsOf i (op :: ops) = stepsOf i ops := by
        unfold stepsOf
        rw [countP_cons_of_neg]
        cases op with
        | step j x =>
          have hn : j ≠ i := by
            intro heq
            exact hot x (by rw [heq])
          simpa using hn
        | tick now => simp
        | start r => simp
      rw [hs]
      exact hr
    · have hcl : ∀ keys, c.phase = .check (key :: keys) → w.shared.clock.ns < blockEnd := by
        intro keys hch
        exact (undisturbed_step ho.1 hc).2.2 keys rfl hch
      obtain ⟨hw1, hr1⟩ := waiting_stepCall (S := S) (x := x) (r := c.request) hb hw hcl
      rw [← hp] at hw1 hr1
      obtain ⟨c', hc', hr', hw', hr⟩ := ih hb' hc1 hw1 ho.2
      refine ⟨c', hc', hr'.trans hre, hw', ?_⟩
      have hs : stepsOf i (.step i x :: ops) = stepsOf i ops + 1 := by
        unfold stepsOf
        simp
      omega

theorem blocked_run {ops : List Op} (he : blockEnd = S.keep (since + loginBlock failures))
    (ht : loginFailureThreshold ≤ failures) (hb : Blocked w.shared.attempts key failures blockEnd)
    (ho : Along (step S) (fun w op => undisturbed key since blockEnd i w op) w ops) :
    Blocked (run (step S) w ops).shared.attempts key failures blockEnd :=
  run_invariant_along (I := fun w : World L => Blocked w.shared.attempts key failures blockEnd)
    (fun _ op h hop => blocked_step op he ht h hop) hb ho

end

/-- The server after `RecordLoginFailure` for a key. -/
def World.afterFailure (S : Service) (w : World L) (key : Key) (now : Int) : World L :=
  { w with shared := { w.shared with attempts := recordLoginFailure S.keep w.shared.attempts key now } }

/-- **Result.** A block holds: once a failure has blocked a key, a call with
that key that starts later returns nothing but `ErrLoginRateLimited`, and does so
in at most four steps of its own, as long as the run is undisturbed. -/
theorem login_block_holds (S : Service) (w : World L) (key : Key) (now blockEnd : Int)
    (hblock : (failureRow S.keep (rowOf w.shared.attempts key) key now).blockedUntil = some blockEnd)
    (r : Request) (hkey : key ∈ r.keys S L) (pre post : List Op) (i : Nat)
    (hi : i = (run (step S) (w.afterFailure S key now) pre).calls.length)
    (hrun : Along (step S) (fun w op => undisturbed key now blockEnd i w op) (w.afterFailure S key now)
      (pre ++ .start r :: post)) :
    ∃ c, (run (step S) (w.afterFailure S key now) (pre ++ .start r :: post)).calls[i]? = some c ∧
      c.request = r ∧ (∀ result, c.phase = .done result → result = .error .loginRateLimited) ∧
      (4 ≤ stepsOf i post → c.phase = .done (.error .loginRateLimited)) := by
  obtain ⟨hb, ht, he⟩ := blocked_of_record hblock
  obtain ⟨hpr, -, hp⟩ := along_append.mp hrun
  have hb1 : Blocked ((run (step S) (w.afterFailure S key now) pre).step S (.start r)).shared.attempts key
      (countFailure (rowOf w.shared.attempts key) now).1 blockEnd := blocked_run he ht hb hpr
  have hs : ((run (step S) (w.afterFailure S key now) pre).step S (.start r)).calls[i]? =
      some ⟨r, .check (r.keys S L)⟩ := by
    rw [hi]
    exact getElem?_concat_length
  have hst : Waiting key blockEnd (.check (r.keys S L)) := hkey
  obtain ⟨c, hc, hre, hw, hr⟩ := waiting_run he ht hb1 hs hst hp
  refine ⟨c, ?_, hre, ?_, ?_⟩
  · rw [run_append]
    exact hc
  · intro result hd
    rw [hd] at hw
    exact hw
  · intro hste
    have hk : (r.keys S L).length ≤ 2 := by
      cases r with
      | login email password pc sourceIP => exact le_rfl
      | refresh uid code => exact Nat.zero_le _
    have hf : remaining (.check (r.keys S L)) ≤ 4 := by
      show 2 * (r.keys S L).length ≤ 4
      omega
    have hn : remaining c.phase = 0 := by
      dsimp only at hr
      omega
    exact hw.turnedAway hn

/-! A server without accounts, and one caller. -/

def plainService : Service where
  sha256 text := text.toList.map fun c => c.toNat.toUInt8
  verifyPassword _ _ := none
  decrypt _ := none
  generateCode _ _ := none
  keep t := t
  keep_mono := monotone_id

def noAccounts : Accounts (sqliteLocale id) := .ofTables [] [] [] [] (by decide)

def caller : Request := .login "user@example.com" "guess" "" "192.0.2.1"

def callerKey : Key := plainService.sha256 "account:user@example.com"

def noInput : Input := ⟨none, true, []⟩

def stepsOfCall (i n : Nat) : List Op := replicate n (.step i noInput)

/-- A login that fails, from its start to its end. -/
def failedLogin (i : Nat) : List Op := .start caller :: stepsOfCall i 9

def quietServer : World (sqliteLocale id) := idle noAccounts [] (clock 0)

/-- Four failed logins; the fifth failure blocks the key, and the next call is
turned away. -/
theorem login_block_holds_fifth : ∃ c, (run (step plainService)
        ((run (step plainService) quietServer ((range 4).flatMap failedLogin)).afterFailure plainService
          callerKey (clock 0).ns)
        ([] ++ .start caller :: stepsOfCall 4 4)).calls[4]? = some c ∧
      c.phase = .done (.error .loginRateLimited) := by
  obtain ⟨c, hc, -, -, hd⟩ := login_block_holds plainService
    (run (step plainService) quietServer ((range 4).flatMap failedLogin)) callerKey (clock 0).ns
    ((clock 60).ns) (by decide +kernel) caller (by decide +kernel) [] (stepsOfCall 4 4) 4 (by decide +kernel)
    (by decide +kernel)
  exact ⟨c, hc, hd (by decide +kernel)⟩

/-- Failures at the end of every block: after the ninth the key is blocked for
fifteen minutes from the first one. -/
def persistent : List Op :=
  (range 5).flatMap failedLogin ++
  .tick (clock 60) :: failedLogin 5 ++
  .tick (clock 180) :: failedLogin 6 ++
  .tick (clock 360) :: failedLogin 7 ++
  .tick (clock 600) :: failedLogin 8 ++
  [.tick (clock 900)]

/-- Two logins pass their checks when that block ends; one fails and blocks the
key for six more minutes. -/
def pair : List Op := [.start caller, .start caller] ++ stepsOfCall 9 4 ++ stepsOfCall 10 4 ++ stepsOfCall 9 5

/-- A second later the other one fails. -/
def late : List Op := .tick (clock 901) :: stepsOfCall 10 5

/-- The failure of the second login, a second after the window, lifts the block
that the first one has set: a login that starts five minutes before its end is
not turned away, although no login succeeded. -/
theorem login_block_lifted :
    Along (step plainService) Timely quietServer (persistent ++ pair ++ late ++ failedLogin 11) ∧
    rowOf (run (step plainService) quietServer (persistent ++ pair)).shared.attempts callerKey =
      some ⟨callerKey, 10, (clock 0).ns, some (clock 1260).ns⟩ ∧
    (run (step plainService) quietServer (persistent ++ pair ++ late)).shared.clock = clock 901 ∧
    (run (step plainService) quietServer (persistent ++ pair ++ late ++ failedLogin 11)).calls[11]? =
      some ⟨caller, .done (.error .invalidCredentials)⟩ ∧
    ∀ c ∈ (run (step plainService) quietServer (persistent ++ pair ++ late ++ failedLogin 11)).calls,
      ∃ e, c.phase = .done (.error e) := by
  refine ⟨by decide +kernel, by decide +kernel, by decide +kernel, by decide +kernel, ?_⟩
  have hfailed : ∀ c ∈ (run (step plainService) quietServer
      (persistent ++ pair ++ late ++ failedLogin 11)).calls, c.phase = .done (.error .invalidCredentials) := by
    decide +kernel
  intro c hc
  exact ⟨_, hfailed c hc⟩

end Mossward.L5.Login
