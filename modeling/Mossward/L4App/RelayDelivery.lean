import Mossward.Core.Run
import Mossward.L4App.RelayQueue

/-!
# Delivery from the relay queue

The queue of `RelayQueue` over any sequence of calls of competing consumers.
What the consumers see is kept in a log, newest first. From the log alone one
can say who holds a frame (`holder`), how often it was claimed (`attempts`), how
long ago it was enqueued (`age`), and what a safe history is (`Lawful`).

The table agrees with the log as long as the times it stores are ones `int64`
nanoseconds can express. A lease that ends after the year 2262 is stored as one
that ended long ago, and the frame is handed out again at once.

Results: `relay_queue_bounded`, `queueInv_run`, `relay_delivery_safe`,
`relay_claim_order`.
-/
namespace Mossward.L4.Relay

open Table Run L1.Rfc3339 List

/-! ## Histories -/

inductive Event
  | enqueued (id : String)
  | claimed (id token : String) (now leaseUntil : Int)
  | acknowledged (id token : String)
  | released (id token : String)
deriving DecidableEq

/-- The token and the lease end of the latest claim, unless it was released. -/
def holder (id : String) : List Event → Option (String × Int)
  | [] => none
  | .enqueued id' :: log => if id' = id then none else holder id log
  | .claimed id' token _ leaseUntil :: log => if id' = id then some (token, leaseUntil) else holder id log
  | .released id' _ :: log => if id' = id then none else holder id log
  | .acknowledged _ _ :: log => holder id log

/-- The number of claims since the frame was enqueued. -/
def attempts (id : String) : List Event → Nat
  | [] => 0
  | .enqueued id' :: log => if id' = id then 0 else attempts id log
  | .claimed id' _ _ _ :: log => if id' = id then attempts id log + 1 else attempts id log
  | _ :: log => attempts id log

/-- The number of events since the frame was enqueued. -/
def age (id : String) (log : List Event) : Nat := log.idxOf (.enqueued id)

/-- The token was given out, and then released or superseded. -/
def Retired (token : String) (log : List Event) : Prop :=
  ∃ later e between id now leaseUntil before,
    log = later ++ e :: (between ++ .claimed id token now leaseUntil :: before) ∧
    (e = .released id token ∨ ∃ token' now' leaseUntil', e = .claimed id token' now' leaseUntil')

/-- What an event may follow. -/
def Allowed (log : List Event) : Event → Prop
  | .enqueued _ => True
  /- every claim of the frame since it was enqueued is released or over -/
  | .claimed id _ now _ => ∀ between token now' leaseUntil before,
      log = between ++ .claimed id token now' leaseUntil :: before → .enqueued id ∉ between →
      .released id token ∈ between ∨ leaseUntil ≤ now
  | .acknowledged _ token => ¬ Retired token log
  | .released _ token => ¬ Retired token log

def Lawful : List Event → Prop
  | [] => True
  | e :: log => Allowed log e ∧ Lawful log

/-! ## Runs -/

inductive Op
  | enqueue (frame : Frame) (now : Int)
  | claim (now leaseDuration : Int) (token : String)
  | acknowledge (id token : String)
  | release (id token : String)
  | purgeExpired (now : Int)

structure World where
  rows : List Row
  /-- the time of the last call that has one -/
  clock : Int
  log : List Event

def Op.now : Op → Option Int
  | .enqueue _ now => some now
  | .claim now _ _ => some now
  | .purgeExpired now => some now
  | _ => none

/-- The error of a call, or what it adds to the log; and the table. -/
def call (c : Encoding) (limits : QueueLimits) (rows : List Row) : Op → Result (List Event)
  | .enqueue frame now =>
    let r := c.enqueue limits rows frame now
    (r.1.map fun _ => [.enqueued frame.messageID], r.2)
  | .claim now leaseDuration token =>
    let r := claim rows now leaseDuration token
    (r.1.map fun delivery => [.claimed delivery.frame.messageID delivery.token now delivery.leaseUntil], r.2)
  | .acknowledge id token =>
    let r := acknowledge rows id token
    (r.1.map fun _ => [.acknowledged id token], r.2)
  | .release id token =>
    let r := release rows id token
    (r.1.map fun _ => [.released id token], r.2)
  | .purgeExpired now => (.ok [], (purgeExpired limits rows now).2)

def World.step (c : Encoding) (limits : QueueLimits) (w : World) (op : Op) : World where
  rows := (call c limits w.rows op).2
  clock := op.now.getD w.clock
  log := ((call c limits w.rows op).1.toOption.getD []) ++ w.log

def World.empty (clock : Int) : World := { rows := [], clock := clock, log := [] }

/-- Times do not decrease. -/
def Timely (w : World) (op : Op) : Prop := w.clock ≤ op.now.getD w.clock

/-- The times that the call stores or compares are `int64` nanoseconds. -/
def InRange (limits : QueueLimits) : Op → Prop
  | .enqueue frame _ => Representable frame.createdAt
  | .claim now leaseDuration _ => Representable now ∧ Representable (now + leaseDuration)
  | .purgeExpired now => Representable (now - limits.maxAge)
  | _ => True

instance (w : World) (op : Op) : Decidable (Timely w op) := inferInstanceAs (Decidable (_ ≤ _))

instance (limits : QueueLimits) : (op : Op) → Decidable (InRange limits op)
  | .enqueue frame _ => inferInstanceAs (Decidable (Representable frame.createdAt))
  | .claim now leaseDuration _ => inferInstanceAs (Decidable (Representable now ∧ Representable (now + leaseDuration)))
  | .purgeExpired now => inferInstanceAs (Decidable (Representable (now - limits.maxAge)))
  | .acknowledge _ _ => .isTrue trivial
  | .release _ _ => .isTrue trivial

def Op.token : Op → Option String
  | .claim _ _ token => some token
  | _ => none

/-- The tokens of the claims. -/
def tokens (ops : List Op) : List String := ops.filterMap Op.token

/-! ## Log lemmas -/

/-- An event of another frame. -/
def Event.Elsewhere (id : String) : Event → Prop
  | .enqueued id' => id' ≠ id
  | .claimed id' _ _ _ => id' ≠ id
  | .released id' _ => id' ≠ id
  | .acknowledged _ _ => True

section
variable {id : String} {e : Event} {log : List Event}

theorem holder_elsewhere (h : e.Elsewhere id) : holder id (e :: log) = holder id log := by
  cases e with
  | acknowledged => rfl
  | _ => exact if_neg h

theorem attempts_elsewhere (h : e.Elsewhere id) : attempts id (e :: log) = attempts id log := by
  cases e with
  | enqueued => exact if_neg h
  | claimed => exact if_neg h
  | released => rfl
  | acknowledged => rfl

section
variable {token : String} {now leaseUntil : Int}

@[simp]
theorem holder_enqueued : holder id (.enqueued id :: log) = none := if_pos rfl

@[simp]
theorem holder_claimed : holder id (.claimed id token now leaseUntil :: log) = some (token, leaseUntil) := if_pos rfl

@[simp]
theorem holder_released : holder id (.released id token :: log) = none := if_pos rfl

@[simp]
theorem attempts_enqueued : attempts id (.enqueued id :: log) = 0 := if_pos rfl

@[simp]
theorem attempts_claimed : attempts id (.claimed id token now leaseUntil :: log) = attempts id log + 1 := if_pos rfl

end

theorem age_cons (h : e ≠ .enqueued id) : age id (e :: log) = age id log + 1 := by
  unfold age
  rw [idxOf_cons_ne _ h]

theorem age_enqueued : age id (.enqueued id :: log) = 0 := by
  unfold age
  rw [idxOf_cons_self]

theorem claimed_of_holder {token : String} {till : Int} (h : holder id log = some (token, till)) :
    ∃ now, .claimed id token now till ∈ log := by
  induction log with
  | nil => cases h
  | cons e log ih =>
    by_cases he : e.Elsewhere id
    · rw [holder_elsewhere he] at h
      obtain ⟨now, hm⟩ := ih h
      exact ⟨now, mem_cons_of_mem _ hm⟩
    cases e with
    | acknowledged => exact absurd trivial he
    | enqueued id' =>
      rw [not_not.mp he, holder_enqueued] at h
      cases h
    | released id' =>
      rw [not_not.mp he, holder_released] at h
      cases h
    | claimed id' token' now' till' =>
      rw [not_not.mp he, holder_claimed] at h
      cases h
      exact ⟨now', by rw [not_not.mp he]; exact mem_cons_self⟩

end

/-! ## What a call that succeeds does -/

inductive Effect (c : Encoding) (limits : QueueLimits) (rows : List Row) : Op → List Event → List Row → Prop
  | enqueue {frame : Frame} {now : Int} (admitted : Admitted c limits rows frame now) :
      Effect c limits rows (.enqueue frame now) [.enqueued frame.messageID]
        (rows ++ [c.row (nextRowid rows) frame])
  | claim {now leaseDuration : Int} {token : String} {r : Row} (next : nextClaim rows now = some r)
      (positive : 0 < leaseDuration) (valid : validateFrame r.frame now = .ok ()) :
      Effect c limits rows (.claim now leaseDuration token)
        [.claimed r.frame.messageID token now (now + leaseDuration)]
        (updateWhere (claims r.messageID now)
          (claimedAs token (unixNano (now + leaseDuration)) (r.attemptCount + 1)) rows)
  | acknowledge {id token : String} {r : Row} (mem : r ∈ rows) (of : r.messageID = id)
      (held : r.deliveryToken = some token) :
      Effect c limits rows (.acknowledge id token) [.acknowledged id token]
        (rows.filter fun r => r.messageID ≠ id)
  | release {id token : String} {r : Row} (mem : r ∈ rows) (of : r.messageID = id)
      (held : r.deliveryToken = some token) :
      Effect c limits rows (.release id token) [.released id token]
        (updateWhere (heldUnder id token) (fun r => { r with deliveryToken := none, leaseUntil := none }) rows)
  | purgeExpired {now : Int} :
      Effect c limits rows (.purgeExpired now) [] (purgeExpired limits rows now).2

section
variable {c : Encoding} {limits : QueueLimits} {rows : List Row} {op : Op} {w : World}

theorem call_cases (hk : Keyed Row.messageID rows) : (∃ e, call c limits rows op = (.error e, rows)) ∨
    ∃ es rows', call c limits rows op = (.ok es, rows') ∧ Effect c limits rows op es rows' := by
  cases op with
  | enqueue frame now =>
    rcases enqueue_cases (Prod.eta (c.enqueue limits rows frame now)).symm with ⟨e, he, hr⟩ | ⟨ho, ha, hr⟩
    · exact .inl ⟨e, by simp only [call, he, hr]; rfl⟩
    · exact .inr ⟨_, _, by simp only [call, ho, hr]; rfl, .enqueue ha⟩
  | claim now dur token =>
    rcases claim_cases hk (Prod.eta (claim rows now dur token)).symm with
      ⟨e, he, hr⟩ | ⟨r, hn, hp, hv, ho, hr⟩
    · exact .inl ⟨e, by simp only [call, he, hr]; rfl⟩
    · exact .inr ⟨_, _, by simp only [call, ho, hr]; rfl, .claim hn hp hv⟩
  | acknowledge id token =>
    rcases acknowledge_cases hk (Prod.eta (acknowledge rows id token)).symm with
      ⟨he, hr⟩ | ⟨ho, ⟨r, hm, hi, hh⟩, hr⟩
    · exact .inl ⟨_, by simp only [call, he, hr]; rfl⟩
    · exact .inr ⟨_, _, by simp only [call, ho, hr]; rfl, .acknowledge hm hi hh⟩
  | release id token =>
    rcases release_cases hk (Prod.eta (release rows id token)).symm with
      ⟨he, hr⟩ | ⟨ho, ⟨r, hm, hi, hh⟩, hr⟩
    · exact .inl ⟨_, by simp only [call, he, hr]; rfl⟩
    · exact .inr ⟨_, _, by simp only [call, ho]; rfl, .release hm hi hh⟩
  | purgeExpired now => exact .inr ⟨_, _, rfl, .purgeExpired⟩

/-- The same of a step: time passes, or the call has its effect. -/
theorem step_cases (hk : Keyed Row.messageID w.rows) :
    World.step c limits w op = ⟨w.rows, op.now.getD w.clock, w.log⟩ ∨
    ∃ es rows', World.step c limits w op = ⟨rows', op.now.getD w.clock, es ++ w.log⟩ ∧
      (call c limits w.rows op).1 = .ok es ∧ Effect c limits w.rows op es rows' := by
  unfold World.step
  rcases @call_cases c limits w.rows op hk with ⟨e, heq⟩ | ⟨es, rows', heq, he⟩
  · rw [heq]
    exact .inl rfl
  · rw [heq]
    exact .inr ⟨es, rows', rfl, rfl, he⟩

end

/-! ## The limits of the queue -/

structure Bounded (limits : QueueLimits) (rows : List Row) : Prop where
  keyed : Keyed Row.messageID rows
  items : rows.length ≤ limits.maxItems
  bytes : bytesUsed rows ≤ limits.maxBytes

section
variable {c : Encoding} {limits : QueueLimits} {rows : List Row} (h : Bounded limits rows)
include h

theorem Bounded.sublist {rows' : List Row} (hs : rows'.Sublist rows) : Bounded limits rows' where
  keyed := h.keyed.sublist (hs.map _)
  items := hs.length_le.trans h.items
  bytes := (List.Sublist.sum_le_sum (hs.map _) (by simp)).trans h.bytes

theorem Bounded.updated {p : Row → Bool} {f : Row → Row} (hi : ∀ r, (f r).messageID = r.messageID)
    (hsi : ∀ r, (f r).frameSize = r.frameSize) : Bounded limits (updateWhere p f rows) where
  keyed := h.keyed.updateWhere fun r _ => hi r
  items := by
    unfold updateWhere
    rw [length_map]
    exact h.items
  bytes := by
    unfold bytesUsed
    rw [updateWhere_map _ fun r _ => hsi r]
    exact h.bytes

theorem Bounded.enqueued {frame : Frame} {now : Int} (ha : Admitted c limits rows frame now) :
    Bounded limits (rows ++ [c.row (nextRowid rows) frame]) where
  keyed := h.keyed.append_singleton ha.fresh
  items := by
    have := ha.items
    simp only [length_append, length_singleton]
    omega
  bytes := by
    simpa [Encoding.row, bytesUsed] using ha.bytes

end

/-- **The queue keeps to its limits**, whatever is called at whatever times: no
message is stored twice, and neither the items nor the bytes exceed what is
allowed. -/
theorem relay_queue_bounded (c : Encoding) (limits : QueueLimits) (clock : Int) (ops : List Op) :
    Bounded limits (run (World.step c limits) (World.empty clock) ops).rows := by
  have hs : Bounded limits (World.empty clock).rows := ⟨nodup_nil, Nat.zero_le _, Nat.zero_le _⟩
  refine run_invariant (I := fun w : World => Bounded limits w.rows) (fun w op h => ?_) hs ops
  rcases step_cases h.keyed with heq | ⟨es, rows', heq, -, he⟩
  · rw [heq]
    exact h
  rw [heq]
  cases he with
  | enqueue ha => exact h.enqueued ha
  | claim _ _ _ => exact h.updated (fun _ => rfl) fun _ => rfl
  | acknowledge _ _ _ => exact h.sublist filter_sublist
  | release _ _ _ => exact h.updated (fun _ => rfl) fun _ => rfl
  | purgeExpired => exact h.sublist filter_sublist

/-! ## The table agrees with the log -/

/-- A row, against the history. -/
structure RowInv (c : Encoding) (clock : Int) (log : List Event) (r : Row) : Prop where
  stored : r.messageID = r.frame.messageID
  size : r.frameSize = c.size r.frame
  created : r.createdAt = unixNano r.frame.createdAt
  priority : r.priority = priorityForFrame r.frame
  wellFormed : r.frame.WellFormed
  notAhead : r.frame.createdAt ≤ clock + 5 * minute
  inRange : Representable r.frame.createdAt
  token : r.deliveryToken = (holder r.messageID log).map Prod.fst
  lease : r.leaseUntil = (holder r.messageID log).map fun h => unixNano h.2
  leaseRange : ∀ h, holder r.messageID log = some h → Representable h.2
  attempted : r.attemptCount = attempts r.messageID log

structure QueueInv (c : Encoding) (limits : QueueLimits) (w : World) : Prop extends Bounded limits w.rows where
  rows : ∀ r ∈ w.rows, RowInv c w.clock w.log r
  /-- rowids are in the order of arrival -/
  order : ∀ r ∈ w.rows, ∀ r' ∈ w.rows, r.rowid ≤ r'.rowid → age r'.messageID w.log ≤ age r.messageID w.log

section
variable {c : Encoding} {limits : QueueLimits} {clock clock' now : Int} {log : List Event} {r : Row} {e : Event}

theorem RowInv.later (h : RowInv c clock log r) (hc : clock ≤ clock') : RowInv c clock' log r :=
  { h with notAhead := by have := h.notAhead; omega }

theorem RowInv.elsewhere (h : RowInv c clock log r) (he : e.Elsewhere r.messageID) :
    RowInv c clock (e :: log) r := by
  have hh : holder r.messageID (e :: log) = holder r.messageID log := holder_elsewhere he
  exact { h with
    token := by rw [hh]; exact h.token
    lease := by rw [hh]; exact h.lease
    leaseRange := by rw [hh]; exact h.leaseRange
    attempted := by rw [attempts_elsewhere he]; exact h.attempted }

/-- The frame is under a claim that is neither released nor over. -/
def Leased (log : List Event) (now : Int) (r : Row) : Prop :=
  ∃ token leaseUntil, holder r.messageID log = some (token, leaseUntil) ∧ now < leaseUntil

theorem RowInv.claimable_iff (h : RowInv c clock log r) (hn : Representable now) :
    claimable now r = true ↔ ¬ Leased log now r := by
  unfold claimable Leased
  rw [h.token, h.lease]
  cases hh : holder r.messageID log with
  | none => simp
  | some p =>
    obtain ⟨token, till⟩ := p
    have hl := unixNano_le_iff (h.leaseRange _ hh) hn
    simp [hl]

end

section
variable {c : Encoding} {limits : QueueLimits} {w : World} {clock' : Int}

section
variable (h : QueueInv c limits w)
include h

theorem QueueInv.shrunk (hc : w.clock ≤ clock') {rows' : List Row}
    (hs : rows'.Sublist w.rows) : QueueInv c limits { rows := rows', clock := clock', log := w.log } where
  toBounded := h.sublist hs
  rows r hr := (h.rows r (hs.subset hr)).later hc
  order r hr r' hr' := h.order r (hs.subset hr) r' (hs.subset hr')

theorem QueueInv.acknowledged (id token : String) :
    QueueInv c limits { w with log := .acknowledged id token :: w.log } where
  toBounded := h.toBounded
  rows r hr := (h.rows r hr).elsewhere trivial
  order r hr r' hr' hle := by
    have ha := h.order r hr r' hr' hle
    rw [age_cons (by simp), age_cons (by simp)]
    omega

theorem QueueInv.updated {p : Row → Bool} {f : Row → Row} {e : Event}
    (hi : ∀ r, (f r).messageID = r.messageID) (hro : ∀ r, (f r).rowid = r.rowid)
    (hsi : ∀ r, (f r).frameSize = r.frameSize) (he : ∀ id, e ≠ .enqueued id)
    (hrow : ∀ r ∈ w.rows, RowInv c clock' (e :: w.log) (if p r then f r else r)) :
    QueueInv c limits { rows := updateWhere p f w.rows, clock := clock', log := e :: w.log } where
  toBounded := h.toBounded.updated hi hsi
  rows r' hr' := by
    obtain ⟨r, hr, rfl⟩ := mem_updateWhere.mp hr'
    exact hrow r hr
  order r₁ hr₁ r₂ hr₂ hle := by
    obtain ⟨x, hx, rfl⟩ := mem_updateWhere.mp hr₁
    obtain ⟨y, hy, rfl⟩ := mem_updateWhere.mp hr₂
    have hs : ∀ r : Row, (if p r then f r else r).messageID = r.messageID ∧
        (if p r then f r else r).rowid = r.rowid := by
      intro r
      split
      · exact ⟨hi r, hro r⟩
      · exact ⟨rfl, rfl⟩
    rw [(hs x).2, (hs y).2] at hle
    have ha := h.order x hx y hy hle
    rw [(hs x).1, (hs y).1, age_cons (he _), age_cons (he _)]
    omega

theorem QueueInv.enqueued {frame : Frame} {now : Int} (hc : w.clock ≤ now)
    (ha : Admitted c limits w.rows frame now) (hra : Representable frame.createdAt) :
    QueueInv c limits { rows := w.rows ++ [c.row (nextRowid w.rows) frame], clock := now
                        log := .enqueued frame.messageID :: w.log } where
  toBounded := h.toBounded.enqueued ha
  rows r hr := by
    rcases mem_append.mp hr with ho | hn
    · exact ((h.rows r ho).later hc).elsewhere fun he => ha.fresh r ho he.symm
    rw [mem_singleton.mp hn]
    exact {
      stored := rfl
      size := rfl
      created := rfl
      priority := rfl
      wellFormed := ha.wellFormed
      notAhead := ha.notAhead
      inRange := hra
      token := by simp [Encoding.row]
      lease := by simp [Encoding.row]
      leaseRange := by simp [Encoding.row]
      attempted := by simp [Encoding.row] }
  order r hr r' hr' hle := by
    -- the new row has the largest rowid and is the youngest
    rcases mem_append.mp hr' with ho' | hn'
    · rcases mem_append.mp hr with ho | hn
      · have hne : ∀ x ∈ w.rows, Event.enqueued frame.messageID ≠ .enqueued x.messageID :=
          fun x hx he => ha.fresh x hx (Event.enqueued.inj he).symm
        have hag := h.order r ho r' ho' hle
        rw [age_cons (hne r ho), age_cons (hne r' ho')]
        omega
      · have hl : r'.rowid < nextRowid w.rows := lt_succ_foldr_max (mem_map_of_mem ho')
        rw [mem_singleton.mp hn] at hle
        simp only [Encoding.row] at hle
        omega
    · rw [mem_singleton.mp hn']
      have hz : age frame.messageID (.enqueued frame.messageID :: w.log) = 0 := age_enqueued
      simp only [Encoding.row]
      omega

theorem QueueInv.claimed {now leaseDuration : Int} {token : String} {r : Row}
    (hclo : w.clock ≤ now) (hn : nextClaim w.rows now = some r) (hra : Representable (now + leaseDuration)) :
    QueueInv c limits
      { rows := updateWhere (claims r.messageID now)
          (claimedAs token (unixNano (now + leaseDuration)) (r.attemptCount + 1)) w.rows
        clock := now
        log := .claimed r.frame.messageID token now (now + leaseDuration) :: w.log } := by
  obtain ⟨hr, hc, -⟩ := nextClaim_some hn
  rw [← (h.rows r hr).stored]
  refine h.updated (fun _ => rfl) (fun _ => rfl) (fun _ => rfl) (by simp) ?_
  intro x hx
  have hi := (h.rows x hx).later hclo
  by_cases hid : x.messageID = r.messageID
  · obtain rfl := h.keyed.eq_of_key hx hr hid
    rw [if_pos (claims_iff.mpr ⟨rfl, hc⟩)]
    exact { hi with
      token := by simp [claimedAs]
      lease := by simp [claimedAs]
      leaseRange := by simpa [claimedAs] using hra
      attempted := by simp [claimedAs, hi.attempted] }
  · rw [if_neg fun hcl => hid (claims_iff.mp hcl).1]
    exact hi.elsewhere fun he => hid he.symm

theorem QueueInv.released {id token : String} {r : Row} (hr : r ∈ w.rows)
    (hi : r.messageID = id) (hh : r.deliveryToken = some token) :
    QueueInv c limits
      { rows := updateWhere (heldUnder id token) (fun r => { r with deliveryToken := none, leaseUntil := none }) w.rows
        clock := w.clock
        log := .released id token :: w.log } := by
  subst hi
  refine h.updated (fun _ => rfl) (fun _ => rfl) (fun _ => rfl) (by simp) ?_
  intro x hx
  have hin := h.rows x hx
  by_cases hi : x.messageID = r.messageID
  · obtain rfl := h.keyed.eq_of_key hx hr hi
    rw [if_pos (heldUnder_iff.mpr ⟨rfl, hh⟩)]
    exact { hin with
      token := by simp
      lease := by simp
      leaseRange := by simp
      attempted := hin.attempted }
  · rw [if_neg fun hu => hi (heldUnder_iff.mp hu).1]
    exact hin.elsewhere fun he => hi he.symm

end

/-- **Result.** Every call keeps the table in agreement with the log. -/
theorem queueInv_step (op : Op) (h : QueueInv c limits w) (ht : Timely w op) (hra : InRange limits op) :
    QueueInv c limits (World.step c limits w op) := by
  rcases step_cases h.keyed with heq | ⟨es, rows', heq, -, he⟩
  · rw [heq]
    exact h.shrunk ht (List.Sublist.refl _)
  rw [heq]
  cases he with
  | enqueue ha => exact h.enqueued ht ha hra
  | claim hn _ _ => exact h.claimed ht hn hra.2
  | acknowledge _ _ _ => exact (h.shrunk le_rfl filter_sublist).acknowledged _ _
  | release hr hi hh => exact h.released hr hi hh
  | purgeExpired => exact h.shrunk ht filter_sublist

theorem queueInv_empty (c : Encoding) (lim : QueueLimits) (clock : Int) :
    QueueInv c lim (World.empty clock) := by
  refine ⟨⟨nodup_nil, Nat.zero_le _, Nat.zero_le _⟩, ?_, ?_⟩ <;> simp [World.empty]

/-- **Result.** The table agrees with the log after every sequence of calls. -/
theorem queueInv_run {clock : Int} {ops : List Op}
    (ho1 : Along (World.step c limits) (fun w op => Timely w op ∧ InRange limits op) (World.empty clock) ops) :
    QueueInv c limits (run (World.step c limits) (World.empty clock) ops) :=
  run_invariant_along (fun _ op hi ho => queueInv_step op hi ho.1 ho.2) (queueInv_empty c limits clock) ho1

end

/-! ## Histories are lawful -/

/-- The token was given out. -/
def Used (token : String) (log : List Event) : Prop := ∃ id now leaseUntil, .claimed id token now leaseUntil ∈ log

structure HistoryInv (w : World) : Prop where
  lawful : Lawful w.log
  /-- a claim that is neither released nor over is that of the holder -/
  spent : ∀ id token now leaseUntil between before,
    w.log = between ++ .claimed id token now leaseUntil :: before → .enqueued id ∉ between →
    .released id token ∈ between ∨ leaseUntil ≤ w.clock ∨ holder id w.log = some (token, leaseUntil)
  /-- a token is given out for one frame -/
  unique : ∀ token id now leaseUntil id' now' leaseUntil', .claimed id token now leaseUntil ∈ w.log →
    .claimed id' token now' leaseUntil' ∈ w.log → id = id'
  retired : ∀ token, Retired token w.log → ∀ id leaseUntil, holder id w.log ≠ some (token, leaseUntil)

section
variable {token : String} {e : Event} {log : List Event}

theorem Retired.used (h : Retired token log) : Used token log := by
  obtain ⟨later, e, between, id, now, till, pre, rfl, -⟩ := h
  exact ⟨id, now, till, by simp⟩

/-- A token retires by the last event or did so before. -/
theorem retired_cons (h : Retired token (e :: log)) :
    Retired token log ∨ ∃ id now till, .claimed id token now till ∈ log ∧
      (e = .released id token ∨ ∃ token' now' till', e = .claimed id token' now' till') := by
  obtain ⟨later, e', between, id, now, till, pre, he, hr⟩ := h
  rcases cons_eq_append_iff.mp he with ⟨rfl, ht⟩ | ⟨later', rfl, ht⟩
  · rw [cons.injEq] at ht
    obtain ⟨rfl, ht⟩ := ht
    exact .inr ⟨id, now, till, by rw [← ht]; simp, hr⟩
  · exact .inl ⟨later', e', between, id, now, till, pre, ht, hr⟩

end

section
variable {w : World} {clock' : Int} {rows' : List Row}

section
variable (h : HistoryInv w)
include h

theorem HistoryInv.later (hc : w.clock ≤ clock') :
    HistoryInv { rows := rows', clock := clock', log := w.log } where
  lawful := h.lawful
  spent id token now leaseUntil between before heq hnot := by
    rcases h.spent id token now leaseUntil between before heq hnot with hr | ho | hh
    · exact .inl hr
    · exact .inr (.inl (ho.trans hc))
    · exact .inr (.inr hh)
  unique := h.unique
  retired := h.retired

theorem HistoryInv.cons (hc : w.clock ≤ clock') {e : Event} (ha : Allowed w.log e)
    (hf : ∀ id token now till, e = .claimed id token now till → ¬ Used token w.log)
    (hen : ∀ id token till, holder id w.log = some (token, till) → e ≠ .enqueued id →
      holder id (e :: w.log) = some (token, till) ∨ e = .released id token ∨ till ≤ clock') :
    HistoryInv { rows := rows', clock := clock', log := e :: w.log } where
  lawful := ⟨ha, h.lawful⟩
  spent id token now till between before heq hnot := by
    rcases cons_eq_append_iff.mp heq with ⟨rfl, ht⟩ | ⟨between', rfl, ht⟩
    · rw [← (cons.inj ht).1]
      exact .inr (.inr holder_claimed)
    simp only [mem_cons, not_or] at hnot
    rcases h.spent id token now till between' before ht hnot.2 with hr | ho | hh
    · exact .inl (mem_cons_of_mem _ hr)
    · exact .inr (.inl (ho.trans hc))
    · rcases hen id token till hh fun he => hnot.1 he.symm with hh | rfl | ho
      · exact .inr (.inr hh)
      · exact .inl mem_cons_self
      · exact .inr (.inl ho)
  unique token id₁ now₁ u₁ id₂ now₂ u₂ h1 h2 := by
    rcases mem_cons.mp h1 with he1 | h1
    · rcases mem_cons.mp h2 with he2 | h2
      · cases he1.trans he2.symm
        rfl
      · exact absurd ⟨_, _, _, h2⟩ (hf _ _ _ _ he1.symm)
    · rcases mem_cons.mp h2 with he2 | h2
      · exact absurd ⟨_, _, _, h1⟩ (hf _ _ _ _ he2.symm)
      · exact h.unique token id₁ now₁ u₁ id₂ now₂ u₂ h1 h2
  retired token hretired id till hh := by
    by_cases hel : e.Elsewhere id
    · rw [holder_elsewhere hel] at hh
      rcases retired_cons hretired with hol | ⟨id', now, till', hm, hre⟩
      · exact h.retired token hol id till hh
      -- the token was given out for one frame, and that is another one
      obtain ⟨now', hm'⟩ := claimed_of_holder hh
      obtain rfl := h.unique _ _ _ _ _ _ _ hm hm'
      rcases hre with rfl | ⟨_, _, _, rfl⟩ <;> exact hel rfl
    have hu : Used token w.log := by
      rcases retired_cons hretired with hol | ⟨id', now, till', hm, -⟩
      · exact hol.used
      · exact ⟨id', now, till', hm⟩
    cases e with
    | acknowledged => exact absurd trivial hel
    | enqueued id' =>
      rw [not_not.mp hel, holder_enqueued] at hh
      cases hh
    | released id' =>
      rw [not_not.mp hel, holder_released] at hh
      cases hh
    | claimed id' token' now till' =>
      rw [not_not.mp hel, holder_claimed] at hh
      cases hh
      exact hf _ _ _ _ rfl hu

theorem HistoryInv.enqueued (hc : w.clock ≤ clock') (id : String) :
    HistoryInv { rows := rows', clock := clock', log := .enqueued id :: w.log } := by
  refine h.cons hc trivial (by simp) fun id' token till hh hn => .inl ?_
  have hel : (Event.enqueued id).Elsewhere id' := fun he => hn (by rw [he])
  rw [holder_elsewhere hel, hh]

section
variable {id : String} {till : Int} {token : String} (hh : holder id w.log = some (token, till))
include hh

theorem HistoryInv.acknowledged :
    HistoryInv { rows := rows', clock := w.clock, log := .acknowledged id token :: w.log } :=
  h.cons le_rfl (fun hr => h.retired token hr id till hh) (by simp) fun _ _ _ hhe _ => .inl hhe

theorem HistoryInv.released :
    HistoryInv { rows := rows', clock := w.clock, log := .released id token :: w.log } := by
  refine h.cons le_rfl (fun hr => h.retired token hr id till hh) (by simp) ?_
  intro id' token' till' hhe _
  by_cases hi : id = id'
  · subst hi
    cases hh.symm.trans hhe
    exact .inr (.inl rfl)
  · have he : (Event.released id token).Elsewhere id' := hi
    rw [holder_elsewhere he]
    exact .inl hhe

end

theorem HistoryInv.claimed {id token : String} {now till : Int} (hc : w.clock ≤ now)
    (hfr : ¬ Used token w.log)
    (hf : ∀ token' till', holder id w.log = some (token', till') → till' ≤ now) :
    HistoryInv { rows := rows', clock := now, log := .claimed id token now till :: w.log } := by
  have ha : Allowed w.log (.claimed id token now till) := by
    intro between token' now' till' pre heq hn
    rcases h.spent id token' now' till' between pre heq hn with hr | ho | hh
    · exact .inl hr
    · exact .inr (ho.trans hc)
    · exact .inr (hf token' till' hh)
  refine h.cons hc ha ?_ ?_
  · intro id' token' now' till' he
    cases he
    exact hfr
  · intro id' token' till' hh _
    by_cases hi : id = id'
    · subst hi
      exact .inr (.inr (hf token' till' hh))
    · have hel : (Event.claimed id token now till).Elsewhere id' := hi
      rw [holder_elsewhere hel]
      exact .inl hh

end

end

section
variable {c : Encoding} {limits : QueueLimits} {w : World}

theorem QueueInv.holder_of_token (h : QueueInv c limits w) {r : Row} {token : String} (hr : r ∈ w.rows)
    (hh : r.deliveryToken = some token) : ∃ till, holder r.messageID w.log = some (token, till) := by
  rw [(h.rows r hr).token, Option.map_eq_some_iff] at hh
  obtain ⟨⟨token', till⟩, hho, rfl⟩ := hh
  exact ⟨till, hho⟩

/-- The token of a claim was not given out before. -/
def FreshToken (w : World) (op : Op) : Prop := ∀ token, op.token = some token → ¬ Used token w.log

theorem historyInv_step (op : Op) (hq : QueueInv c limits w) (h : HistoryInv w) (ht : Timely w op)
    (hra : InRange limits op) (hf : FreshToken w op) : HistoryInv (World.step c limits w op) := by
  rcases step_cases hq.keyed with heq | ⟨es, rows', heq, -, he⟩
  · rw [heq]
    exact h.later ht
  rw [heq]
  cases he with
  | enqueue _ => exact h.enqueued ht _
  | @claim now leaseDuration token r hnext _ _ =>
    obtain ⟨hr, hc, -⟩ := nextClaim_some hnext
    have hi := hq.rows r hr
    apply h.claimed ht (hf token rfl)
    intro token' till' hh
    rw [← hi.stored] at hh
    by_contra hl
    exact (hi.claimable_iff hra.1).mp hc ⟨token', till', hh, not_le.mp hl⟩
  | acknowledge hr hid hhe =>
    subst hid
    obtain ⟨till, hh⟩ := hq.holder_of_token hr hhe
    exact h.acknowledged hh
  | release hr hid hhe =>
    subst hid
    obtain ⟨till, hh⟩ := hq.holder_of_token hr hhe
    exact h.released hh
  | purgeExpired => exact h.later ht

/-- A call gives out no token but its own. -/
theorem used_step {op : Op} {token : String} (hq : QueueInv c limits w)
    (h : Used token (World.step c limits w op).log) : Used token w.log ∨ op.token = some token := by
  obtain ⟨id, now, till, hm⟩ := h
  rcases step_cases hq.keyed with heq | ⟨es, rows', heq, -, he⟩
  · rw [heq] at hm
    exact .inl ⟨id, now, till, hm⟩
  rw [heq] at hm
  rcases mem_append.mp hm with hn | ho
  · cases he with
    | claim _ _ _ =>
      cases mem_singleton.mp hn
      exact .inr rfl
    | purgeExpired => cases hn
    | _ => cases mem_singleton.mp hn
  · exact .inl ⟨id, now, till, ho⟩

theorem historyInv_run {ops : List Op} (hq : QueueInv c limits w) (h : HistoryInv w)
    (ho : Along (World.step c limits) (fun w op => Timely w op ∧ InRange limits op) w ops)
    (ht : (tokens ops).Nodup) (hf : ∀ token ∈ tokens ops, ¬ Used token w.log) :
    HistoryInv (run (World.step c limits) w ops) := by
  induction ops generalizing w with
  | nil => exact h
  | cons op ops ih =>
    have hs : (tokens ops).Sublist (tokens (op :: ops)) := (sublist_cons_self _ _).filterMap _
    have how : FreshToken w op := by
      intro token hto
      apply hf token
      exact mem_filterMap.mpr ⟨op, mem_cons_self, hto⟩
    apply ih (queueInv_step op hq ho.1.1 ho.1.2)
      (historyInv_step op hq h ho.1.1 ho.1.2 how) ho.2 (ht.sublist hs)
    intro token hm hu
    rcases used_step hq hu with hol | hto
    · exact hf token (hs.subset hm) hol
    · unfold tokens at ht hm
      rw [filterMap_cons_some hto, nodup_cons] at ht
      exact ht.1 hm

theorem historyInv_empty (clock : Int) : HistoryInv (World.empty clock) := by
  refine ⟨trivial, ?_, ?_, ?_⟩
  · intro id token now till between pre he
    simp [World.empty] at he
  · intro token id now till id' now' till' hm
    cases hm
  · intro token hr
    obtain ⟨id, now, till, hm⟩ := hr.used
    cases hm

end

/-! ## Delivery -/

/-- How a frame may leave the queue. -/
def Departure (limits : QueueLimits) (log : List Event) (r : Row) : Op → Prop
  | .acknowledge id token => id = r.messageID ∧ ∃ leaseUntil, holder r.messageID log = some (token, leaseUntil)
  | .purgeExpired now => r.frame.createdAt < now - limits.maxAge
  | _ => False

section
variable {c : Encoding} {limits : QueueLimits} {w : World}

theorem RowInv.purged_iff {clock now : Int} {log : List Event} {r : Row} (h : RowInv c clock log r)
    (hr : Representable (now - limits.maxAge)) :
    r.createdAt < unixNano (now - limits.maxAge) ↔ r.frame.createdAt < now - limits.maxAge := by
  rw [h.created]
  exact unixNano_lt_iff h.inRange hr

theorem departure_step {op : Op} (h : QueueInv c limits w) (hra : InRange limits op) {r : Row}
    (hr : r ∈ w.rows) (hg : ∀ r' ∈ (World.step c limits w op).rows, r'.frame ≠ r.frame) :
    Departure limits w.log r op := by
  rcases step_cases h.keyed with heq | ⟨es, rows', heq, -, he⟩
  · rw [heq] at hg
    exact absurd rfl (hg r hr)
  rw [heq] at hg
  cases he with
  | enqueue _ => exact absurd rfl (hg r (mem_append_left _ hr))
  | claim _ _ _ =>
    refine absurd ?_ (hg _ (mem_updateWhere.mpr ⟨r, hr, rfl⟩))
    split <;> rfl
  | release _ _ _ =>
    refine absurd ?_ (hg _ (mem_updateWhere.mpr ⟨r, hr, rfl⟩))
    split <;> rfl
  | @acknowledge id token r' hr' hid hh =>
    by_cases hs : r.messageID = id
    · obtain rfl := h.keyed.eq_of_key hr hr' (hs.trans hid.symm)
      exact ⟨hid.symm, h.holder_of_token hr hh⟩
    · exact absurd rfl (hg r (mem_filter.mpr ⟨hr, by simpa using hs⟩))
  | @purgeExpired now =>
    by_contra hkept
    have hn := mt ((h.rows r hr).purged_iff hra).mp hkept
    exact hg r (mem_filter.mpr ⟨hr, by simpa using hn⟩) rfl

theorem rows_of_error {op : Op} {e : QueueError} (h : QueueInv c limits w)
    (he : (call c limits w.rows op).1 = .error e) : (World.step c limits w op).rows = w.rows := by
  rcases step_cases h.keyed with heq | ⟨es, rows', heq, ho, -⟩
  · rw [heq]
  · rw [ho] at he
    cases he

end

/-- **Result.** Over every sequence of calls whose times fit `int64`
nanoseconds, with distinct tokens: no frame is claimed while an earlier claim of
it is in force and no retired token is accepted (`Lawful`), the queue keeps
within its limits, and whichever call is next, a frame leaves only by the
acknowledgement of its holder or by a purge, and an error changes nothing. -/
theorem relay_delivery_safe (c : Encoding) (limits : QueueLimits) (clock : Int) (ops : List Op)
    (hops : Along (World.step c limits) (fun w op => Timely w op ∧ InRange limits op) (World.empty clock) ops)
    (htokens : (tokens ops).Nodup) :
    let w := run (World.step c limits) (World.empty clock) ops
    Lawful w.log ∧ Keyed Row.messageID w.rows ∧ w.rows.length ≤ limits.maxItems ∧
    (w.rows.map fun r => c.size r.frame).sum ≤ limits.maxBytes ∧
    ∀ op, InRange limits op →
      (∀ r ∈ w.rows, (∀ r' ∈ (World.step c limits w op).rows, r'.frame ≠ r.frame) → Departure limits w.log r op) ∧
      ∀ e, (call c limits w.rows op).1 = .error e → (World.step c limits w op).rows = w.rows := by
  intro w
  have hq : QueueInv c limits w := queueInv_run hops
  have hh : HistoryInv w := by
    apply historyInv_run (queueInv_empty c limits clock) (historyInv_empty clock) hops htokens
    intro token _ hu
    obtain ⟨id, now, till, hm⟩ := hu
    cases hm
  refine ⟨hh.lawful, hq.keyed, hq.items, ?_, ?_⟩
  · have hs : w.rows.map (fun r => c.size r.frame) = w.rows.map (·.frameSize) := by
      apply map_congr_left
      intro r hr
      exact (hq.rows r hr).size.symm
    rw [hs]
    exact hq.bytes
  · intro op hra
    exact ⟨fun r hr hg => departure_step hq hra hr hg, fun e he => rows_of_error hq he⟩

/-! A queue with one frame. -/

/-- 2025-11-16T00:00:00Z. -/
def oneNow : Int := 739570 * day

def oneFrame : Frame where
  protocolVersion := 1
  messageID := "0123456789abcdef0123456789abcdef"
  kind := .agentCheckIn
  downstreamEndpointID := "endpoint"
  senderID := "agent"
  recipientID := "server"
  recipientKeyID := "key"
  sequence := 1
  createdAt := oneNow
  ephemeralPublicKey := replicate 32 0
  nonce := replicate 12 0
  ciphertext := [0]
  signature := replicate 64 0

def oneEncoding : Encoding := ⟨fun _ => 512, fun _ => by decide⟩

def oneLimits : QueueLimits := ⟨8, 4096, day, by decide⟩

/-- The longest `time.Duration`. -/
def longLease : Int := 2 ^ 63 - 1

/-- A frame is claimed, released, and claimed and acknowledged by another
consumer. -/
def handedOver : List Op :=
  [.enqueue oneFrame oneNow, .claim oneNow minute "a", .release oneFrame.messageID "a", .claim oneNow minute "b",
    .acknowledge oneFrame.messageID "b"]

/-- A frame is claimed for the longest time, and claimed again. -/
def claimedTwice : List Op :=
  [.enqueue oneFrame oneNow, .claim oneNow longLease "a", .claim oneNow longLease "b"]

theorem relay_delivery_safe_handed_over :
    (run (World.step oneEncoding oneLimits) (World.empty oneNow) handedOver).log =
      [.acknowledged oneFrame.messageID "b", .claimed oneFrame.messageID "b" oneNow (oneNow + minute),
        .released oneFrame.messageID "a", .claimed oneFrame.messageID "a" oneNow (oneNow + minute),
        .enqueued oneFrame.messageID] ∧
    Lawful (run (World.step oneEncoding oneLimits) (World.empty oneNow) handedOver).log :=
  ⟨by decide +kernel,
    (relay_delivery_safe oneEncoding oneLimits oneNow handedOver (by decide +kernel) (by decide +kernel)).1⟩

/-- The end of the longest lease wraps around: two consumers hold the frame at
the same time. -/
theorem relay_frame_claimed_twice : Along (World.step oneEncoding oneLimits)
      (fun w op => Timely w op ∧ Representable (op.now.getD w.clock)) (World.empty oneNow) claimedTwice ∧
    (tokens claimedTwice).Nodup ∧
    ¬ Lawful (run (World.step oneEncoding oneLimits) (World.empty oneNow) claimedTwice).log := by
  refine ⟨by decide +kernel, by decide +kernel, ?_⟩
  intro hl
  rcases hl.1 [] "a" oneNow (oneNow + longLease) _ rfl (by simp) with hr | ho
  · cases hr
  · revert ho
    decide

/-! ## The order of claims -/

/-- Alerts come before check-ins and replies, and those before the rest. -/
def kindClass : MessageKind → Nat
  | .integrityAlert | .tamperAlert => 2
  | .agentCheckIn | .serverReply => 1
  | .agentLogBatch | .other _ => 0

theorem priorityForFrame_eq (frame : Frame) : priorityForFrame frame = 100 * (kindClass frame.kind + 1) := by
  unfold priorityForFrame kindClass
  cases frame.kind <;> rfl

section
variable {c : Encoding} {limits : QueueLimits} {w : World} {now : Int}

theorem QueueInv.valid_of_kept (h : QueueInv c limits w) (hc : w.clock ≤ now)
    (hra : Representable (now - limits.maxAge)) {r : Row} (hr : r ∈ (purgeExpired limits w.rows now).2) :
    validateFrame r.frame now = .ok () := by
  obtain ⟨hm, hk⟩ := mem_filter.mp hr
  have hi := h.rows r hm
  have hn : ¬ r.frame.createdAt < now - limits.maxAge := by
    intro ho
    have hp := (hi.purged_iff hra).mpr ho
    simp [hp] at hk
  have hah := hi.notAhead
  have ha := limits.valid.2.2.2
  unfold maximumQueueAge at ha
  apply validateFrame_ok_iff.mpr
  refine ⟨hi.wellFormed, ?_, ?_⟩
  · omega
  · omega

end

/-- **Result.** After a purge, a claim finds the queue empty exactly when every
frame left is leased. Otherwise it hands out a frame that is not leased, of the
highest class and the earliest in its class, and counts its claims. -/
theorem relay_claim_order (c : Encoding) (limits : QueueLimits) (clock : Int) (ops : List Op)
    (hops : Along (World.step c limits) (fun w op => Timely w op ∧ InRange limits op) (World.empty clock) ops)
    (now leaseDuration : Int) (token : String)
    (hclock : (run (World.step c limits) (World.empty clock) ops).clock ≤ now) (hpositive : 0 < leaseDuration)
    (hnow : Representable now) (hretention : Representable (now - limits.maxAge)) :
    let w := run (World.step c limits) (World.empty clock) ops
    let rows := (purgeExpired limits w.rows now).2
    ((claim rows now leaseDuration token).1 = .error .queueEmpty ↔ ∀ r ∈ rows, Leased w.log now r) ∧
    ((∃ r ∈ rows, ¬ Leased w.log now r) → ∃ r ∈ rows, ¬ Leased w.log now r ∧
      (claim rows now leaseDuration token).1 =
        .ok ⟨r.frame, token, attempts r.messageID w.log + 1, now + leaseDuration⟩ ∧
      ∀ r' ∈ rows, ¬ Leased w.log now r' → kindClass r'.frame.kind < kindClass r.frame.kind ∨
        (kindClass r'.frame.kind = kindClass r.frame.kind ∧ age r'.messageID w.log ≤ age r.messageID w.log)) := by
  intro w rows
  have hq : QueueInv c limits w := queueInv_run hops
  have hs : rows.Sublist w.rows := filter_sublist
  have hc : ∀ r ∈ rows, (claimable now r = true ↔ ¬ Leased w.log now r) := fun r hr =>
    (hq.rows r (hs.subset hr)).claimable_iff hnow
  cases hn : nextClaim rows now with
  | none =>
    have ha : ∀ r ∈ rows, Leased w.log now r := by
      intro r hr
      by_contra hf
      have ht := (hc r hr).mpr hf
      rw [nextClaim_none.mp hn r hr] at ht
      cases ht
    have he : (claim rows now leaseDuration token).1 = .error .queueEmpty := by
      unfold claim
      rw [if_neg (not_le.mpr hpositive), hn]
    refine ⟨⟨fun _ => ha, fun _ => he⟩, ?_⟩
    intro hf
    obtain ⟨r, hr, hf⟩ := hf
    exact absurd (ha r hr) hf
  | some r =>
    obtain ⟨hr, hfi, hl⟩ := nextClaim_some hn
    have hf := (hc r hr).mp hfi
    have hi := hq.rows r (hs.subset hr)
    have ho : (claim rows now leaseDuration token).1 =
        .ok ⟨r.frame, token, attempts r.messageID w.log + 1, now + leaseDuration⟩ := by
      unfold claim
      rw [if_neg (not_le.mpr hpositive), hn]
      dsimp only
      rw [countP_claims (hq.keyed.sublist (hs.map _)) hr hfi, if_neg (by simp),
        hq.valid_of_kept hclock hretention hr, hi.attempted]
    refine ⟨⟨?_, fun ha => absurd (ha r hr) hf⟩, fun _ => ⟨r, hr, hf, ho, ?_⟩⟩
    · intro he
      rw [ho] at he
      cases he
    · intro r' hr' hf'
      have hi' := hq.rows r' (hs.subset hr')
      have hb := hl r' hr' ((hc r' hr').mpr hf')
      rw [hi.priority, hi'.priority, priorityForFrame_eq, priorityForFrame_eq] at hb
      rcases hb with hlo | ⟨hsa, hro⟩
      · omega
      · right
        refine ⟨by omega, ?_⟩
        exact hq.order r (hs.subset hr) r' (hs.subset hr') hro

/-- A frame that was released is claimed for the second time. -/
theorem relay_claim_order_second : (claim (purgeExpired oneLimits
        (run (World.step oneEncoding oneLimits) (World.empty oneNow) (handedOver.take 3)).rows oneNow).2
      oneNow minute "c").1 = .ok ⟨oneFrame, "c", 2, oneNow + minute⟩ ∧
    (claim (purgeExpired oneLimits
        (run (World.step oneEncoding oneLimits) (World.empty oneNow) (handedOver.take 3)).rows oneNow).2
      oneNow minute "c").1 ≠ .error .queueEmpty := by
  refine ⟨by decide +kernel, ?_⟩
  have hro : ∃ r ∈ (purgeExpired oneLimits
      (run (World.step oneEncoding oneLimits) (World.empty oneNow) (handedOver.take 3)).rows oneNow).2,
      r.messageID = oneFrame.messageID := by decide +kernel
  have ho := (relay_claim_order oneEncoding oneLimits oneNow (handedOver.take 3) (by decide +kernel)
    oneNow minute "c" (by decide +kernel) (by decide) (by decide) (by decide)).1
  intro he
  obtain ⟨r, hr, hi⟩ := hro
  obtain ⟨token, till, hh, -⟩ := ho.mp he r hr
  rw [hi] at hh
  cases hh

/-- The end of the longest lease wraps around: the only frame is leased, and a
claim succeeds. -/
theorem relay_leased_frame_claimed :
    Along (World.step oneEncoding oneLimits) (fun w op => Timely w op ∧ Representable (op.now.getD w.clock))
      (World.empty oneNow) (claimedTwice.take 2) ∧
    (∀ r ∈ (purgeExpired oneLimits
        (run (World.step oneEncoding oneLimits) (World.empty oneNow) (claimedTwice.take 2)).rows oneNow).2,
      Leased (run (World.step oneEncoding oneLimits) (World.empty oneNow) (claimedTwice.take 2)).log oneNow r) ∧
    (claim (purgeExpired oneLimits
        (run (World.step oneEncoding oneLimits) (World.empty oneNow) (claimedTwice.take 2)).rows oneNow).2
      oneNow minute "b").1 = .ok ⟨oneFrame, "b", 2, oneNow + minute⟩ := by
  refine ⟨by decide +kernel, ?_, by decide +kernel⟩
  have hi : ∀ r ∈ (purgeExpired oneLimits
      (run (World.step oneEncoding oneLimits) (World.empty oneNow) (claimedTwice.take 2)).rows oneNow).2,
      r.messageID = oneFrame.messageID := by decide +kernel
  have hh : holder oneFrame.messageID
      (run (World.step oneEncoding oneLimits) (World.empty oneNow) (claimedTwice.take 2)).log =
      some ("a", oneNow + longLease) := by decide +kernel
  intro r hr
  refine ⟨"a", oneNow + longLease, ?_, by decide⟩
  rw [hi r hr]
  exact hh

end Mossward.L4.Relay
