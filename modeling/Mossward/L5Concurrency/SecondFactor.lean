import Mossward.L5Concurrency.Login

/-!
# A second factor is accepted once

Matching a code of the authenticator and consuming its time step are two steps
of a call, and other logins may come between them. What makes a step unique is
the update that consumes it: it asks for a counter above the last one. A
recovery code is consumed by an update that asks for an unused one.

Results:
* `factorInv_step`, `factorInv_run`: the tables bound what was accepted.
* `counter_of_step`, `second_factor_once`.
-/
namespace Mossward.L5.Login

open Table Run L1.Rfc3339 L2.Identity L2.LoginAttempts List

variable {L : L2.Identity.Locale}

def Accepted.counterOf (userID : String) : Accepted → Option Int
  | .totp userID' counter _ => if userID' = userID then some counter else none
  | .recovery _ _ => none

def Accepted.codeOf (userID : String) : Accepted → Option String
  | .totp _ _ _ => none
  | .recovery userID' code => if userID' = userID then some code else none

theorem counterOf_eq_some {uid : String} {a : Accepted} {ctr : Int} :
    a.counterOf uid = some ctr ↔ ∃ now, a = .totp uid ctr now := by
  cases a with
  | totp uid' ctr' now =>
    by_cases hi : uid' = uid <;> simp [Accepted.counterOf]
  | recovery uid' code => simp [Accepted.counterOf]

theorem codeOf_eq_some {uid code : String} {a : Accepted} :
    a.codeOf uid = some code ↔ a = .recovery uid code := by
  cases a with
  | totp uid' ctr' now => simp [Accepted.codeOf]
  | recovery uid' code' =>
    by_cases hi : uid' = uid <;> simp [Accepted.codeOf]

/-! ## Time steps -/

theorem timeStep_near (x offset : Int) (h : offset ∈ [-1, 0, 1]) :
    |timeStep (x + offset * totpPeriodSeconds) - timeStep x| ≤ 1 := by
  have ht : ∀ y : Int, y.tdiv 30 = if 0 ≤ y then y / 30 else -(-y / 30) := by
    intro y
    split
    · rename_i hy
      exact Int.tdiv_eq_ediv_of_nonneg hy
    · rw [← neg_neg y, Int.neg_tdiv, Int.tdiv_eq_ediv_of_nonneg (by omega), neg_neg]
  unfold timeStep totpPeriodSeconds
  rw [ht, ht, abs_le]
  simp only [mem_cons, not_mem_nil, or_false] at h
  all_goals
    split
    · split <;> omega
    · split <;> omega

theorem matchingTOTPCounter_near {S : Service} {secret : List UInt8} {pc : String} {now : Time} {ctr : Int}
    (h : matchingTOTPCounter S secret pc now = some ctr) : |ctr - timeStep (unix now)| ≤ 1 := by
  obtain ⟨cand, hf, rfl⟩ := Option.map_eq_some_iff.mp h
  obtain ⟨offset, ho, rfl⟩ := mem_map.mp (mem_of_find?_eq_some hf)
  exact timeStep_near (unix now) offset ho

/-! ## What a step does to second factors -/

/-- A step accepts nothing and leaves the second factors alone, or accepts one
and consumes it. -/
inductive FactorEffect (S : Service) (sh : Shared L) (p : Phase) (sh' : Shared L) : Prop
  | none (factors : Accounts.SameFactors sh.accounts sh'.accounts) (accepted : sh'.accepted = sh.accepted)
  | totp (userID : String) (counter : Int) (now : Time) (phase : p = .factor userID (.counter counter now))
      (below : ∃ c ∈ sh.accounts.totpCredentials, c.userID = userID ∧ c.lastCounter < counter)
      (credentials : sh'.accounts.totpCredentials =
        updateWhere (fun c => c.userID = userID && c.lastCounter < counter)
          (fun c => { c with lastCounter := counter })
          sh.accounts.totpCredentials)
      (codes : sh'.accounts.recoveryCodes = sh.accounts.recoveryCodes)
      (accepted : sh'.accepted = .totp userID counter now :: sh.accepted)
  | recovery (userID code : String) (usedAt : Time)
      (unused : ∃ c ∈ sh.accounts.recoveryCodes, Accounts.recoveryCodeOpen userID (S.sha256 code) c)
      (accounts : sh'.accounts = sh.accounts.useRecoveryCode userID (S.sha256 code) usedAt)
      (accepted : sh'.accepted = .recovery userID code :: sh.accepted)

section
variable {S : Service} {x : Input} {r : Request} {sh : Shared L}

theorem FactorEffect.same {p : Phase} : FactorEffect S sh p sh := .none ⟨rfl, rfl⟩ rfl

theorem stepFactor_effect (S : Service) (x : Input) (uid : String) (sh : Shared L) (f : Factor) :
    FactorEffect S sh (.factor uid f) (stepFactor S x uid sh f).1 := by
  cases f with
  | secret pc =>
    simp only [stepFactor]
    split
    · exact .same
    · split <;> exact .same
  | code secret pc =>
    simp only [stepFactor]
    split <;> exact .same
  | counter counter now =>
    simp only [stepFactor]
    split
    · rename_i acc he
      rcases Accounts.consumeTOTPCounter_cases he with ⟨hf, -⟩ | ⟨-, hb, hc, hco⟩
      · cases hf
      · exact .totp uid counter now rfl hb hc hco rfl
    · rename_i acc he
      rcases Accounts.consumeTOTPCounter_cases he with ⟨-, hs⟩ | ⟨ht, -⟩
      · exact .none hs rfl
      · cases ht
  | recoveryClock code => exact .same
  | recovery code now =>
    simp only [stepFactor]
    split
    · rename_i acc he
      rcases Accounts.consumeRecoveryCode_cases he with ⟨hn, -⟩ | ⟨-, hu, rfl⟩
      · exact absurd rfl hn
      · exact .recovery uid code now hu rfl rfl
    · rename_i res acc hn he
      rcases Accounts.consumeRecoveryCode_cases he with ⟨-, rfl⟩ | ⟨ht, -, -⟩
      · exact .none ⟨rfl, rfl⟩ rfl
      · exact absurd ht hn

/-- **Result.** Every step of a call accepts at most one second factor, and then
consumes it. -/
theorem stepCall_effect (S : Service) (x : Input) (r : Request) (sh : Shared L) (p : Phase) :
    FactorEffect S sh p (stepCall S x r sh p).1 := by
  cases p with
  | check keys =>
    cases keys with
    | nil =>
      simp only [stepCall]
      split
      · exact .same
      · split <;> exact .same
    | cons key keys => exact .same
  | query key now keys =>
    simp only [stepCall]
    split <;> exact .same
  | policy uid role =>
    simp only [stepCall]
    split
    · split <;> exact .same
    · exact .same
  | factor uid f => exact stepFactor_effect S x uid sh f
  | failing e => exact .same
  | recording e now keys =>
    cases keys with
    | nil => exact .same
    | cons key keys => exact .none ⟨rfl, rfl⟩ rfl
  | clearing uid keys =>
    cases keys with
    | cons key keys => exact .none ⟨rfl, rfl⟩ rfl
    | nil =>
      simp only [stepCall, finish]
      split
      · have hs := Accounts.createSession_factors sh.accounts ⟨x.sessionHash, uid⟩ sh.clock x.recorded
        split
        · rename_i he
          rw [he] at hs
          exact .none hs rfl
        · rename_i he
          rw [he] at hs
          exact .none hs rfl
      · exact .same
  | done res => exact .same

/-- **Result.** A call that is about to consume a time step has matched it with
the clock it read. -/
theorem counter_of_step {p : Phase} {sh' : Shared L} {uid : String} {counter : Int} {now : Time}
    (h : stepCall S x r sh p = (sh', .factor uid (.counter counter now))) :
    |counter - timeStep (unix now)| ≤ 1 ∧ now = sh.clock := by
  cases p with
  | check keys =>
    cases keys with
    | nil =>
      simp only [stepCall] at h
      split at h
      · unfold Factor.start at h
        dsimp only at h
        split at h <;> cases h
      · split at h <;> cases h
    | cons key keys => cases h
  | query key now keys =>
    simp only [stepCall] at h
    split at h <;> cases h
  | policy uid role =>
    simp only [stepCall] at h
    split at h
    · split at h
      · unfold Factor.start at h
        dsimp only at h
        split at h <;> cases h
      · cases h
    · cases h
  | factor uid' f =>
    have hr : (stepFactor S x uid' sh f).2 = .next (.counter counter now) := by
      have hp := congrArg Prod.snd h
      simp only [stepCall] at hp
      generalize (stepFactor S x uid' sh f).2 = res at hp ⊢
      cases res with
      | next f =>
        cases hp
        rfl
      | accepted => cases hp
      | rejected =>
        cases r with
        | login email password pc sourceIP => cases hp
        | refresh uid code => cases hp
    cases f with
    | secret pc =>
      simp only [stepFactor] at hr
      split at hr
      · cases hr
      · split at hr <;> cases hr
    | code secret pc =>
      simp only [stepFactor] at hr
      split at hr
      · cases hr
      · rename_i hm
        cases hr
        exact ⟨matchingTOTPCounter_near hm, rfl⟩
    | recoveryClock code => cases hr
    | _ =>
      simp only [stepFactor] at hr
      split at hr <;> cases hr
  | failing e => cases h
  | recording e now keys =>
    cases keys with
    | nil => cases h
    | cons key keys => cases h
  | clearing uid keys =>
    cases keys with
    | cons key keys => cases h
    | nil =>
      simp only [stepCall, finish] at h
      split at h
      · split at h <;> cases h
      · cases h
  | done res => cases h

end

/-! ## What was accepted, against the tables -/

structure FactorInv (S : Service) (sh : Shared L) : Prop where
  counters : ∀ userID counter now, .totp userID counter now ∈ sh.accepted →
    ∃ c ∈ sh.accounts.totpCredentials, c.userID = userID ∧ counter ≤ c.lastCounter
  /-- newest first -/
  increasing : ∀ userID, (sh.accepted.filterMap (Accepted.counterOf userID)).Pairwise (· > ·)
  codes : ∀ userID code, .recovery userID code ∈ sh.accepted →
    ∀ c ∈ sh.accounts.recoveryCodes, Accounts.recoveryCodeOpen userID (S.sha256 code) c = false
  once : ∀ userID, (sh.accepted.filterMap (Accepted.codeOf userID)).Nodup

section
variable {S : Service} {sh sh' : Shared L} {p : Phase}

theorem FactorInv.totp (h : FactorInv S sh) {uid : String} {ctr : Int} {now : Time}
    (hb : ∃ c ∈ sh.accounts.totpCredentials, c.userID = uid ∧ c.lastCounter < ctr)
    (hcr : sh'.accounts.totpCredentials =
      updateWhere (fun c => c.userID = uid && c.lastCounter < ctr) (fun c => { c with lastCounter := ctr })
        sh.accounts.totpCredentials)
    (hcod : sh'.accounts.recoveryCodes = sh.accounts.recoveryCodes)
    (hac : sh'.accepted = .totp uid ctr now :: sh.accepted) : FactorInv S sh' where
  counters := by
    intro uid' ctr' now' hm
    rw [hac] at hm
    rw [hcr]
    rcases mem_cons.mp hm with hne | ho
    · cases hne
      obtain ⟨c, hc, hi, hlt⟩ := hb
      refine ⟨{ c with lastCounter := ctr }, mem_updateWhere.mpr ⟨c, hc, ?_⟩, hi, le_rfl⟩
      rw [if_pos (by simp [hi, hlt])]
    obtain ⟨c, hc, hi, hl⟩ := h.counters uid' ctr' now' ho
    refine ⟨_, mem_updateWhere.mpr ⟨c, hc, rfl⟩, ?_⟩
    split
    · rename_i hp
      simp only [Bool.and_eq_true, decide_eq_true_eq] at hp
      refine ⟨hi, ?_⟩
      show ctr' ≤ ctr
      omega
    · exact ⟨hi, hl⟩
  increasing := by
    intro uid'
    rw [hac, filterMap_cons]
    by_cases hi : uid = uid'
    · subst hi
      have hs : (Accepted.totp uid ctr now).counterOf uid = some ctr := if_pos rfl
      rw [hs]
      refine pairwise_cons.mpr ⟨?_, h.increasing uid⟩
      intro ctr' hm
      obtain ⟨a, ha, hco⟩ := mem_filterMap.mp hm
      obtain ⟨now', rfl⟩ := counterOf_eq_some.mp hco
      -- the row of the user bounds the earlier counters and is below the new one
      obtain ⟨c, hc, hci, hl⟩ := h.counters uid ctr' now' ha
      obtain ⟨c', hc', hci', hlt⟩ := hb
      cases sh.accounts.totpID.eq_of_key hc hc' (hci.trans hci'.symm)
      omega
    · have hn : (Accepted.totp uid ctr now).counterOf uid' = none := if_neg hi
      rw [hn]
      exact h.increasing uid'
  codes := by
    intro uid' code hm
    rw [hac] at hm
    rw [hcod]
    exact h.codes uid' code (by simpa using hm)
  once := by
    intro uid'
    rw [hac]
    exact h.once uid'

theorem FactorInv.recovery (h : FactorInv S sh) {uid code : String} {usedAt : Time}
    (hu : ∃ c ∈ sh.accounts.recoveryCodes, Accounts.recoveryCodeOpen uid (S.sha256 code) c)
    (hacc : sh'.accounts = sh.accounts.useRecoveryCode uid (S.sha256 code) usedAt)
    (hac : sh'.accepted = .recovery uid code :: sh.accepted) : FactorInv S sh' where
  counters := by
    intro uid' ctr now hm
    rw [hac] at hm
    rw [hacc]
    exact h.counters uid' ctr now (by simpa using hm)
  increasing := by
    intro uid'
    rw [hac]
    exact h.increasing uid'
  codes := by
    intro uid' code' hm c' hc'
    rw [hac] at hm
    rw [hacc] at hc'
    obtain ⟨c, hc, rfl⟩ := mem_updateWhere.mp hc'
    by_cases ho : Accounts.recoveryCodeOpen uid (S.sha256 code) c = true
    · rw [if_pos ho]
      simp [Accounts.recoveryCodeOpen]
    rw [if_neg ho]
    rcases mem_cons.mp hm with hne | hol
    · cases hne
      simpa using ho
    · exact h.codes uid' code' hol c hc
  once := by
    intro uid'
    rw [hac, filterMap_cons]
    by_cases hi : uid = uid'
    · subst hi
      have hs : (Accepted.recovery uid code).codeOf uid = some code := if_pos rfl
      rw [hs]
      refine nodup_cons.mpr ⟨?_, h.once uid⟩
      intro hm
      obtain ⟨a, ha, hco⟩ := mem_filterMap.mp hm
      rw [codeOf_eq_some.mp hco] at ha
      obtain ⟨c, hc, ho⟩ := hu
      rw [h.codes uid code ha c hc] at ho
      cases ho
    · have hn : (Accepted.recovery uid code).codeOf uid' = none := if_neg hi
      rw [hn]
      exact h.once uid'

theorem FactorInv.effect (h : FactorInv S sh) (he : FactorEffect S sh p sh') : FactorInv S sh' := by
  cases he with
  | none hf ha =>
    refine ⟨?_, ?_, ?_, ?_⟩
    · rw [ha, hf.1]
      exact h.counters
    · rw [ha]
      exact h.increasing
    · rw [ha, hf.2]
      exact h.codes
    · rw [ha]
      exact h.once
  | totp uid ctr now _ hb hc hco ha =>
    exact h.totp hb hc hco ha
  | recovery uid code usedAt hu hac ha => exact h.recovery hu hac ha

end

/-! ## Interleavings -/

section
variable {S : Service}

theorem factorInv_step (w : World L) (op : Op) (h : FactorInv S w.shared) : FactorInv S (w.step S op).shared := by
  cases op with
  | tick now => exact ⟨h.counters, h.increasing, h.codes, h.once⟩
  | start r => exact h
  | step i x =>
    simp only [World.step]
    split
    · exact h
    · rename_i c _
      exact h.effect (stepCall_effect S x c.request w.shared c.phase)

/-- The clock readings of the calls and of what was accepted have a property,
and matched time steps are near them. -/
structure ReadingInv (P : Time → Prop) (w : World L) : Prop where
  pending : ∀ c ∈ w.calls, ∀ userID counter now, c.phase = .factor userID (.counter counter now) →
    |counter - timeStep (unix now)| ≤ 1 ∧ P now
  accepted : ∀ userID counter now, .totp userID counter now ∈ w.shared.accepted →
    |counter - timeStep (unix now)| ≤ 1 ∧ P now

theorem readingInv_step {P : Time → Prop} (w : World L) (op : Op) (h : ReadingInv P w) (hcl : P w.shared.clock) :
    ReadingInv P (w.step S op) := by
  cases op with
  | tick now => exact ⟨h.pending, h.accepted⟩
  | start r =>
    refine ⟨?_, h.accepted⟩
    intro c hc uid ctr now hp
    rcases mem_append.mp hc with ho | hn
    · exact h.pending c ho uid ctr now hp
    · rw [mem_singleton.mp hn] at hp
      cases hp
  | step i x =>
    simp only [World.step]
    split
    · exact h
    rename_i c hg
    have hm : c ∈ w.calls := mem_of_getElem? hg
    constructor
    · intro c' hc' uid ctr now hp
      rcases mem_or_eq_of_mem_set hc' with ho | hn
      · exact h.pending c' ho uid ctr now hp
      · rw [hn] at hp
        obtain ⟨hne, rfl⟩ := counter_of_step (Prod.ext rfl hp)
        exact ⟨hne, hcl⟩
    · intro uid ctr now ha
      have he := stepCall_effect S x c.request w.shared c.phase
      cases he with
      | none _ hs =>
        rw [hs] at ha
        exact h.accepted uid ctr now ha
      | totp uid' ctr' now' hp _ _ _ hn =>
        rw [hn] at ha
        rcases mem_cons.mp ha with heq | ho
        · cases heq
          exact h.pending c hm uid ctr now hp
        · exact h.accepted uid ctr now ho
      | recovery uid' code usedAt _ _ hn =>
        rw [hn] at ha
        exact h.accepted uid ctr now (by simpa using ha)

theorem readingInv_run {P : Time → Prop} {w : World L} {ops : List Op} (h : ReadingInv P w)
    (hc : ∀ n, P (run (World.step S) w (ops.take n)).shared.clock) : ReadingInv P (run (World.step S) w ops) := by
  induction ops generalizing w with
  | nil => exact h
  | cons op ops ih =>
    apply ih (readingInv_step w op h (hc 0))
    intro n
    exact hc (n + 1)

end

/-- **Result.** No second factor is accepted twice: over every interleaving of
logins and refreshes, the time steps accepted for a user increase in the order
of acceptance, each is within one step of the clock that its call read, and no
recovery code is accepted twice. -/
theorem second_factor_once (S : Service) (accounts : Accounts L) (attempts : List Row) (clock : Time) (ops : List Op)
    (userID : String) :
    let w := run (World.step S) (World.idle accounts attempts clock) ops
    (w.shared.accepted.reverse.filterMap (Accepted.counterOf userID)).Pairwise (· < ·) ∧
    (∀ counter now, .totp userID counter now ∈ w.shared.accepted → |counter - timeStep (unix now)| ≤ 1 ∧
      ∃ n, (run (World.step S) (World.idle accounts attempts clock) (ops.take n)).shared.clock = now) ∧
    (w.shared.accepted.reverse.filterMap (Accepted.codeOf userID)).Nodup := by
  intro w
  have hs : FactorInv S (World.idle accounts attempts clock).shared := by
    refine ⟨?_, fun _ => List.Pairwise.nil, ?_, fun _ => nodup_nil⟩
    · intro userID counter now hm
      cases hm
    · intro userID code hm
      cases hm
  have hi : FactorInv S w.shared := run_invariant (fun w op h => factorInv_step w op h) hs ops
  have hr : ReadingInv
      (fun now => ∃ n, (run (World.step S) (World.idle accounts attempts clock)
        (ops.take n)).shared.clock = now) w := by
    apply readingInv_run
    · constructor
      · intro c hc
        cases hc
      · intro userID counter now hm
        cases hm
    · intro n
      exact ⟨n, rfl⟩
  refine ⟨?_, fun counter now hm => hr.accepted userID counter now hm, ?_⟩
  · rw [filterMap_reverse, pairwise_reverse]
    exact hi.increasing userID
  · rw [filterMap_reverse, nodup_reverse]
    exact hi.once userID

end Mossward.L5.Login
