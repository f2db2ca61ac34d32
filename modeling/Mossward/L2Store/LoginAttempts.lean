import Mossward.Core.Table
import Mossward.L1Encoding.Rfc3339

/-!
# Failed logins

The table that counts failed logins per throttle key and says until when a key
is blocked: `internal/store/identity.go:163-233` and `postgres_mfa.go:12-98`.
Failures are counted in a window of fifteen minutes from the first one. From
the fifth on, each blocks the key for one more minute than the one before, up to
fifteen. A failure after the window starts a new one and takes the block away.

Instants are nanoseconds; `keep` is what a column keeps of one.

Results: `loginBlock_mono`, `Blocked.record`.
-/
namespace Mossward.L2.LoginAttempts

open Table L1.Rfc3339

abbrev Key := List UInt8

/-- A row of `login_attempts`. -/
structure Row where
  keyHash : Key
  failures : Nat
  windowStartedAt : Int
  blockedUntil : Option Int
deriving DecidableEq

def loginFailureWindow : Int := 15 * minute
def loginFailureThreshold : Nat := 5
def loginBaseBlock : Int := minute
def loginMaximumBlock : Int := 15 * minute

/-- The length of a block; `time.Duration` wraps around. -/
def loginBlock (failures : Nat) : Int :=
  let block := (((failures : Int) - loginFailureThreshold + 1) * loginBaseBlock).bmod (2 ^ 64)
  if loginMaximumBlock < block then loginMaximumBlock else block

def rowOf (rows : List Row) (key : Key) : Option Row := rows.find? fun r => r.keyHash = key

/-- Mirrors `internal/store/identity.go:163-177`: whether the key is blocked. -/
def loginThrottle (rows : List Row) (key : Key) (now : Int) : Bool :=
  match rowOf rows key with
  | none => false
  | some r => r.blockedUntil.any (now < ·)

/-- The failures with this one, and the start of their window. -/
def countFailure (row : Option Row) (now : Int) : Nat × Int :=
  match row with
  | none => (1, now)
  | some r => if now - r.windowStartedAt ≤ loginFailureWindow then (r.failures + 1, r.windowStartedAt) else (1, now)

/-- The row that a failure stores. -/
def failureRow (keep : Int → Int) (row : Option Row) (key : Key) (now : Int) : Row where
  keyHash := key
  failures := (countFailure row now).1
  windowStartedAt := keep (countFailure row now).2
  blockedUntil :=
    if loginFailureThreshold ≤ (countFailure row now).1 then some (keep (now + loginBlock (countFailure row now).1))
    else none

/-- Mirrors `internal/store/identity.go:179-224`. -/
def recordLoginFailure (keep : Int → Int) (rows : List Row) (key : Key) (now : Int) : List Row :=
  upsert Row.keyHash (fun _ => failureRow keep (rowOf rows key) key now) rows
    (failureRow keep (rowOf rows key) key now)

/-- One key of `ClearLoginFailures`, `internal/store/identity.go:226-233`. -/
def clearLoginFailures (rows : List Row) (key : Key) : List Row := rows.filter fun r => r.keyHash ≠ key

section
variable {keep : Int → Int} {rows : List Row} {key key' : Key} {now : Int}

theorem rowOf_record_self : rowOf (recordLoginFailure keep rows key now) key =
    some (failureRow keep (rowOf rows key) key now) := by
  refine (find?_upsert (fun _ _ => rfl) rows key).trans ?_
  rw [if_pos (show key = (failureRow keep (rowOf rows key) key now).keyHash from rfl)]
  cases rows.find? (fun r => r.keyHash = key) <;> rfl

theorem rowOf_record_other (h : key' ≠ key) :
    rowOf (recordLoginFailure keep rows key now) key' = rowOf rows key' := by
  refine (find?_upsert (fun _ _ => rfl) rows key').trans ?_
  exact if_neg h

theorem rowOf_clear_other (h : key' ≠ key) : rowOf (clearLoginFailures rows key) key' = rowOf rows key' := by
  unfold rowOf clearLoginFailures
  rw [List.find?_filter]
  congr 1
  funext r
  by_cases hr : r.keyHash = key'
  · simp [hr, h]
  · simp [hr]

/-- The failures for which the length of a block does not wrap around. -/
def failureLimit : Nat := 10 ^ 8

variable {failures : Nat}

theorem loginBlock_eq (h : failures ≤ failureLimit) :
    loginBlock failures = min (((failures : Int) - 4) * minute) (15 * minute) := by
  have hb : (failures : Int) ≤ 10 ^ 8 := by exact_mod_cast h
  have hw : (((failures : Int) - loginFailureThreshold + 1) * loginBaseBlock).bmod (2 ^ 64) =
      ((failures : Int) - 4) * minute := by
    have he : ((failures : Int) - loginFailureThreshold + 1) * loginBaseBlock = ((failures : Int) - 4) * minute := by
      unfold loginFailureThreshold loginBaseBlock
      ring
    rw [he]
    unfold minute second
    apply Int.bmod_eq_of_le
    · omega
    · omega
  unfold loginBlock
  dsimp only
  unfold loginMaximumBlock
  split <;> omega

theorem loginBlock_mono {a b : Nat} (ha : a ≤ b) (hb : b ≤ failureLimit) : loginBlock a ≤ loginBlock b := by
  rw [loginBlock_eq (ha.trans hb), loginBlock_eq hb]
  have hl : ((a : Int) - 4) * minute ≤ ((b : Int) - 4) * minute := by
    apply mul_le_mul_of_nonneg_right
    · omega
    · decide
  omega

/-- The key is blocked at least until then, after at least so many failures. -/
def Blocked (rows : List Row) (key : Key) (failures : Nat) (blockEnd : Int) : Prop :=
  ∃ r u, rowOf rows key = some r ∧ failures ≤ r.failures ∧ r.blockedUntil = some u ∧ blockEnd ≤ u

variable {blockEnd : Int}

theorem Blocked.throttled (h : Blocked rows key failures blockEnd) (hn : now < blockEnd) :
    loginThrottle rows key now = true := by
  obtain ⟨r, u, hr, -, hb, hle⟩ := h
  unfold loginThrottle
  rw [hr]
  dsimp only
  rw [hb]
  have hl : now < u := by omega
  simpa using hl

theorem Blocked.of_rowOf_eq {rows' : List Row} (h : Blocked rows key failures blockEnd)
    (he : rowOf rows' key = rowOf rows key) : Blocked rows' key failures blockEnd := by
  obtain ⟨r, u, hro, hr⟩ := h
  exact ⟨r, u, he.trans hro, hr⟩

/-- A failure at `now` is counted in the window of the row, and the row is far
from the failures at which the length of a block wraps around. -/
def inWindow (rows : List Row) (key : Key) (now : Int) : Bool :=
  (rowOf rows key).all fun r => now - r.windowStartedAt ≤ loginFailureWindow && r.failures < failureLimit

theorem blocked_of_record (h : (failureRow keep (rowOf rows key) key now).blockedUntil = some blockEnd) :
    Blocked (recordLoginFailure keep rows key now) key (countFailure (rowOf rows key) now).1 blockEnd ∧
    loginFailureThreshold ≤ (countFailure (rowOf rows key) now).1 ∧
    blockEnd = keep (now + loginBlock (countFailure (rowOf rows key) now).1) := by
  refine ⟨⟨_, blockEnd, rowOf_record_self, le_rfl, h, le_rfl⟩, ?_⟩
  unfold failureRow at h
  split at h
  · rename_i ht
    exact ⟨ht, (Option.some.inj h).symm⟩
  · cases h

/-- **Result.** A failure inside the window that is not older than the one that
set the block does not shorten it. -/
theorem Blocked.record {now0 : Int} (hk : Monotone keep)
    (h : Blocked rows key failures (keep (now0 + loginBlock failures)))
    (ht : loginFailureThreshold ≤ failures) (hw : inWindow rows key now) (hn : now0 ≤ now) :
    Blocked (recordLoginFailure keep rows key now) key failures (keep (now0 + loginBlock failures)) := by
  obtain ⟨r, u, hr, hf, -, -⟩ := h
  unfold inWindow at hw
  rw [hr] at hw
  simp only [Option.all_some, Bool.and_eq_true, decide_eq_true_eq] at hw
  obtain ⟨hi, hl⟩ := hw
  have hc : (countFailure (rowOf rows key) now).1 = r.failures + 1 := by
    rw [hr]
    unfold countFailure
    dsimp only
    rw [if_pos hi]
  have hb : (failureRow keep (rowOf rows key) key now).blockedUntil =
      some (keep (now + loginBlock (r.failures + 1))) := by
    unfold failureRow
    rw [hc, if_pos (by omega)]
  refine ⟨_, _, rowOf_record_self, ?_, hb, ?_⟩
  · show failures ≤ (countFailure (rowOf rows key) now).1
    omega
  · apply hk
    have hlo := loginBlock_mono (show failures ≤ r.failures + 1 by omega) (show r.failures + 1 ≤ failureLimit from hl)
    omega

end

end Mossward.L2.LoginAttempts
