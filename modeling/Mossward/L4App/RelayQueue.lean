import Mossward.L1Encoding.Names
import Mossward.L2Store.WorkerJob

/-!
# The relay's frame queue

A relay keeps encrypted frames in an SQLite table until they are delivered;
`internal/relaytransport/queue.go` and the frame rules of `protocol.go`. A
consumer claims the frame of the highest priority for a lease, under a random
token, and acknowledges or releases it with that token.

Instants are nanoseconds since the zero `time.Time`. The table keeps them as
`UnixNano`, which wraps around outside of `int64`. The size of a frame's JSON
text is a parameter; errors of the database are left out.

Results:
* `nextClaim_some`, `nextClaim_none`: which frame is claimed next.
* `enqueue_cases`, `claim_cases`, `acknowledge_cases`, `release_cases`: every
  call fails without effect, or does one thing to the table.
* `validateFrame_ok_iff`.
-/
namespace Mossward.L4.Relay

open Table L1.Names L1.Rfc3339 L2.WorkerJob List

/-! ## Frames -/

def protocolVersion : Int := 1
def maximumCiphertextSize : Nat := 4 * 2 ^ 20
def day : Int := 24 * hour

/-- A `MessageKind` is a string; five of them have names. -/
inductive MessageKind
  | agentCheckIn
  | serverReply
  | agentLogBatch
  | integrityAlert
  | tamperAlert
  | other (kind : String)
deriving DecidableEq, Repr

structure Frame where
  protocolVersion : Int
  messageID : String
  kind : MessageKind
  downstreamEndpointID : String
  senderID : String
  recipientID : String
  recipientKeyID : String
  sequence : Nat
  createdAt : Int
  ephemeralPublicKey : List UInt8
  nonce : List UInt8
  ciphertext : List UInt8
  signature : List UInt8
deriving DecidableEq

def isHexDigit (c : Char) : Bool :=
  ('0' ≤ c && c ≤ '9') || ('a' ≤ c && c ≤ 'f') || ('A' ≤ c && c ≤ 'F')

/-- `hex.DecodeString` reads sixteen bytes. -/
def validMessageID (id : String) : Bool := id.toList.length = 32 && id.toList.all isHexDigit

/-- `AllowedMessageKinds`. -/
def allowedMessageKind : MessageKind → Bool
  | .other _ => false
  | _ => true

/-- Mirrors `ValidateFrame`, `internal/relaytransport/protocol.go:60-84`. -/
def validateFrame (frame : Frame) (now : Int) : Except String Unit := do
  require (frame.protocolVersion = protocolVersion) "unsupported Mossward relay protocol version"
  require (validMessageID frame.messageID) "relay message ID must be a 128-bit hexadecimal value"
  require (allowedMessageKind frame.kind) "unsupported Mossward relay message kind"
  require (frame.downstreamEndpointID ≠ "" && frame.senderID ≠ "" && frame.recipientID ≠ "" &&
    frame.recipientKeyID ≠ "" && frame.sequence ≠ 0 && frame.createdAt ≠ 0)
    "relay endpoint identity, sequence, and creation time are required"
  require (frame.createdAt ≤ now + 5 * minute && now - 30 * day ≤ frame.createdAt)
    "relay message creation time is outside the accepted window"
  require (frame.ciphertext.length ≠ 0 && frame.ciphertext.length ≤ maximumCiphertextSize)
    "relay ciphertext size is invalid"
  require (frame.ephemeralPublicKey.length = 32 && frame.nonce.length = 12 &&
    64 ≤ frame.signature.length && frame.signature.length ≤ 80) "relay cryptographic envelope is invalid"

/-- The part of the rules that does not read the clock. -/
def Frame.WellFormed (frame : Frame) : Prop :=
  frame.protocolVersion = Relay.protocolVersion ∧ validMessageID frame.messageID ∧ allowedMessageKind frame.kind ∧
  (frame.downstreamEndpointID ≠ "" && frame.senderID ≠ "" && frame.recipientID ≠ "" &&
    frame.recipientKeyID ≠ "" && frame.sequence ≠ 0 && frame.createdAt ≠ 0) ∧
  (frame.ciphertext.length ≠ 0 && frame.ciphertext.length ≤ maximumCiphertextSize) ∧
  (frame.ephemeralPublicKey.length = 32 && frame.nonce.length = 12 &&
    64 ≤ frame.signature.length && frame.signature.length ≤ 80)

theorem validateFrame_ok_iff {frame : Frame} {now : Int} {u : Unit} : validateFrame frame now = .ok u ↔
      frame.WellFormed ∧ frame.createdAt ≤ now + 5 * minute ∧ now - 30 * day ≤ frame.createdAt := by
  unfold validateFrame Frame.WellFormed
  simp only [bind_eq_ok, require_eq_ok, exists_const, Bool.and_eq_true, decide_eq_true_eq]
  tauto

/-! ## The table -/

def maximumQueueAge : Int := 30 * day

/-- The limits that `OpenQueue` accepts. -/
structure QueueLimits where
  maxItems : Nat
  maxBytes : Nat
  maxAge : Int
  valid : 1 ≤ maxItems ∧ 1 ≤ maxBytes ∧ 0 < maxAge ∧ maxAge ≤ maximumQueueAge

/-- The length of a frame's JSON text. -/
structure Encoding where
  size : Frame → Nat
  size_pos : ∀ frame, 0 < size frame

/-- A row of `relay_frames`. -/
structure Row where
  rowid : Nat
  messageID : String
  frame : Frame
  frameSize : Nat
  createdAt : Int
  priority : Int
  deliveryToken : Option String
  leaseUntil : Option Int
  attemptCount : Nat
deriving DecidableEq

structure Delivery where
  frame : Frame
  token : String
  attempt : Nat
  leaseUntil : Int
deriving DecidableEq

inductive QueueError
  | queueDuplicate
  | queueEmpty
  | queueFull
  | queueAckRejected
  | message (text : String)
deriving DecidableEq, Repr

abbrev Result (α : Type) := Except QueueError α × List Row

/-- Mirrors `internal/relaytransport/queue.go:382-391`. -/
def priorityForFrame (frame : Frame) : Int :=
  match frame.kind with
  | .integrityAlert | .tamperAlert => 300
  | .agentCheckIn | .serverReply => 200
  | _ => 100

/-- The rowid SQLite gives to the next row. -/
def nextRowid (rows : List Row) : Nat := (rows.map (·.rowid)).foldr max 0 + 1

def bytesUsed (rows : List Row) : Nat := (rows.map (·.frameSize)).sum

def Encoding.row (c : Encoding) (rowid : Nat) (frame : Frame) : Row where
  rowid := rowid
  messageID := frame.messageID
  frame := frame
  frameSize := c.size frame
  createdAt := unixNano frame.createdAt
  priority := priorityForFrame frame
  deliveryToken := none
  leaseUntil := none
  attemptCount := 0

/-- Mirrors `internal/relaytransport/queue.go:99-140`. A time has no JSON text
outside of the years 0 to 9999. -/
def Encoding.enqueue (c : Encoding) (limits : QueueLimits) (rows : List Row) (frame : Frame) (now : Int) :
    Result Unit :=
  match validateFrame frame now with
  | .error e => (.error (.message e), rows)
  | .ok () =>
    if frame.createdAt < now - limits.maxAge then
      (.error (.message "relay frame exceeds the queue retention limit"), rows)
    else if ¬ YearInRange frame.createdAt then (.error (.message "encode encrypted relay frame"), rows)
    else if limits.maxBytes < c.size frame then (.error .queueFull, rows)
    else if rows.any (fun r => r.messageID = frame.messageID) then (.error .queueDuplicate, rows)
    else if limits.maxItems ≤ rows.length || limits.maxBytes < bytesUsed rows + c.size frame then
      (.error .queueFull, rows)
    else (.ok (), rows ++ [c.row (nextRowid rows) frame])

/-- `delivery_token IS NULL OR lease_until<=?`. -/
def claimable (now : Int) (r : Row) : Bool :=
  r.deliveryToken = none || r.leaseUntil.any (· ≤ unixNano now)

/-- `ORDER BY priority DESC,rowid`. -/
def claimedBefore (r r' : Row) : Bool :=
  r'.priority < r.priority || (r.priority = r'.priority && r.rowid ≤ r'.rowid)

def nextClaim (rows : List Row) (now : Int) : Option Row := firstBy claimedBefore (rows.filter (claimable now))

def claimedAs (token : String) (leaseUntil : Int) (attempt : Nat) (r : Row) : Row :=
  { r with deliveryToken := some token, leaseUntil := some leaseUntil, attemptCount := attempt }

/-- The row that a claim updates. -/
def claims (id : String) (now : Int) (r : Row) : Bool := r.messageID = id && claimable now r

/-- Mirrors `internal/relaytransport/queue.go:161-208`; `token` is the random
one. The update is undone when the frame is not valid. -/
def claim (rows : List Row) (now leaseDuration : Int) (token : String) : Result Delivery :=
  if leaseDuration ≤ 0 then (.error (.message "relay delivery lease duration must be positive"), rows)
  else
    match nextClaim rows now with
    | none => (.error .queueEmpty, rows)
    | some r =>
      if rows.countP (claims r.messageID now) ≠ 1 then (.error .queueEmpty, rows)
      else
        match validateFrame r.frame now with
        | .error e => (.error (.message ("validate claimed relay frame: " ++ e)), rows)
        | .ok () =>
          (.ok { frame := r.frame, token := token, attempt := r.attemptCount + 1, leaseUntil := now + leaseDuration },
            updateWhere (claims r.messageID now)
              (claimedAs token (unixNano (now + leaseDuration)) (r.attemptCount + 1)) rows)

/-- `message_id=? AND delivery_token=?`. -/
def heldUnder (id token : String) (r : Row) : Bool := r.messageID = id && r.deliveryToken = some token

/-- Mirrors `internal/relaytransport/queue.go:210-226`. -/
def acknowledge (rows : List Row) (id token : String) : Result Unit :=
  if trimSpace id.toList = [] || trimSpace token.toList = [] then (.error .queueAckRejected, rows)
  else
    (if rows.countP (heldUnder id token) ≠ 1 then .error .queueAckRejected else .ok (),
      rows.filter fun r => !heldUnder id token r)

/-- Mirrors `internal/relaytransport/queue.go:228-239`. -/
def release (rows : List Row) (id token : String) : Result Unit :=
  (if rows.countP (heldUnder id token) ≠ 1 then .error .queueAckRejected else .ok (),
    updateWhere (heldUnder id token) (fun r => { r with deliveryToken := none, leaseUntil := none }) rows)

/-- Mirrors `internal/relaytransport/queue.go:241-252`: the number of rows, and
the rows that stay. -/
def purgeExpired (limits : QueueLimits) (rows : List Row) (now : Int) : Nat × List Row :=
  (rows.countP fun r => r.createdAt < unixNano (now - limits.maxAge),
    rows.filter fun r => !decide (r.createdAt < unixNano (now - limits.maxAge)))

/-! ## What each call does -/

section
variable {c : Encoding} {limits : QueueLimits} {rows rows' : List Row} {now : Int} {id token : String}

/-- An accepted frame is one that the rules and the limits admit. -/
structure Admitted (c : Encoding) (limits : QueueLimits) (rows : List Row) (frame : Frame) (now : Int) : Prop where
  wellFormed : frame.WellFormed
  notAhead : frame.createdAt ≤ now + 5 * minute
  retained : now - limits.maxAge ≤ frame.createdAt
  fresh : ∀ r ∈ rows, r.messageID ≠ frame.messageID
  items : rows.length < limits.maxItems
  bytes : bytesUsed rows + c.size frame ≤ limits.maxBytes

variable {res : Except QueueError Unit}

theorem enqueue_cases {frame : Frame} (h : c.enqueue limits rows frame now = (res, rows')) :
    (∃ e, res = .error e ∧ rows' = rows) ∨
    (res = .ok () ∧ Admitted c limits rows frame now ∧ rows' = rows ++ [c.row (nextRowid rows) frame]) := by
  unfold Encoding.enqueue at h
  split at h
  · cases h
    exact .inl ⟨_, rfl, rfl⟩
  rename_i hv
  obtain ⟨hw, ha, -⟩ := validateFrame_ok_iff.mp hv
  split at h
  · cases h
    exact .inl ⟨_, rfl, rfl⟩
  rename_i hre
  split at h
  · cases h
    exact .inl ⟨_, rfl, rfl⟩
  split at h
  · cases h
    exact .inl ⟨_, rfl, rfl⟩
  split at h
  · cases h
    exact .inl ⟨_, rfl, rfl⟩
  rename_i hf
  split at h
  · cases h
    exact .inl ⟨_, rfl, rfl⟩
  rename_i hro
  cases h
  simp only [Bool.or_eq_true, decide_eq_true_eq, not_or, not_le, not_lt] at hro
  refine .inr ⟨rfl, ⟨hw, ha, not_lt.mp hre, ?_, hro.1, hro.2⟩, rfl⟩
  intro r hr he
  apply hf
  exact any_eq_true.mpr ⟨r, hr, by simpa using he⟩

theorem claims_iff {r : Row} : claims id now r = true ↔ r.messageID = id ∧ claimable now r = true := by
  simp [claims]

theorem heldUnder_iff {r : Row} : heldUnder id token r = true ↔ r.messageID = id ∧ r.deliveryToken = some token := by
  simp [heldUnder]

theorem claimedBefore_iff (r r' : Row) :
    claimedBefore r r' = true ↔ toLex (-r.priority, r.rowid) ≤ toLex (-r'.priority, r'.rowid) := by
  rw [Prod.Lex.toLex_le_toLex]
  simp only [claimedBefore, Bool.or_eq_true, Bool.and_eq_true, decide_eq_true_eq]
  omega

theorem nextClaim_none : nextClaim rows now = none ↔ ∀ r ∈ rows, claimable now r = false := by
  unfold nextClaim
  rw [firstBy_eq_none]
  simp

theorem nextClaim_some {r : Row} (h : nextClaim rows now = some r) :
    r ∈ rows ∧ claimable now r = true ∧ ∀ r' ∈ rows, claimable now r' = true →
      r'.priority < r.priority ∨ (r'.priority = r.priority ∧ r.rowid ≤ r'.rowid) := by
  obtain ⟨hm, hc⟩ := mem_filter.mp (firstBy_mem h)
  refine ⟨hm, hc, ?_⟩
  intro r' hr' hc'
  have hl := firstBy_least claimedBefore_iff h r' (mem_filter.mpr ⟨hr', hc'⟩)
  rw [Prod.Lex.toLex_le_toLex] at hl
  omega

variable (hkeyed : Keyed Row.messageID rows)
include hkeyed

theorem countP_claims {r : Row} (hr : r ∈ rows) (h : claimable now r = true) :
    rows.countP (claims r.messageID now) = 1 := by
  apply hkeyed.countP_eq_one hr (claims_iff.mpr ⟨rfl, h⟩)
  intro x _ hx
  exact (claims_iff.mp hx).1

theorem claim_cases {dur : Int} {res : Except QueueError Delivery}
    (h : claim rows now dur token = (res, rows')) :
    (∃ e, res = .error e ∧ rows' = rows) ∨
    ∃ r, nextClaim rows now = some r ∧ 0 < dur ∧ validateFrame r.frame now = .ok () ∧
      res = .ok ⟨r.frame, token, r.attemptCount + 1, now + dur⟩ ∧
      rows' = updateWhere (claims r.messageID now)
        (claimedAs token (unixNano (now + dur)) (r.attemptCount + 1)) rows := by
  unfold claim at h
  split at h
  · cases h
    exact .inl ⟨_, rfl, rfl⟩
  rename_i hp
  split at h
  · cases h
    exact .inl ⟨_, rfl, rfl⟩
  rename_i r hn
  rw [countP_claims hkeyed (nextClaim_some hn).1 (nextClaim_some hn).2.1] at h
  rw [if_neg (by simp)] at h
  split at h
  · cases h
    exact .inl ⟨_, rfl, rfl⟩
  · rename_i hv
    cases h
    exact .inr ⟨r, hn, not_le.mp hp, hv, rfl, rfl⟩

theorem acknowledge_cases (h : acknowledge rows id token = (res, rows')) :
    (res = .error .queueAckRejected ∧ rows' = rows) ∨
    (res = .ok () ∧ (∃ r ∈ rows, r.messageID = id ∧ r.deliveryToken = some token) ∧
      rows' = rows.filter fun r => r.messageID ≠ id) := by
  unfold acknowledge at h
  split at h
  · cases h
    exact .inl ⟨rfl, rfl⟩
  cases h
  by_cases hc : rows.countP (heldUnder id token) = 1
  · obtain ⟨r, hr, hh⟩ := countP_pos_iff.mp (by omega : 0 < rows.countP (heldUnder id token))
    obtain ⟨hi, ht⟩ := heldUnder_iff.mp hh
    refine .inr ⟨by simp [hc], ⟨r, hr, hi, ht⟩, ?_⟩
    apply filter_congr
    intro x hx
    by_cases hx' : x.messageID = id
    · obtain rfl := hkeyed.eq_of_key hx hr (hx'.trans hi.symm)
      simp [hh, hx']
    · simp [heldUnder, hx']
  · refine .inl ⟨by simp [hc], ?_⟩
    have hn := hkeyed.none_of_countP_ne_one (fun x _ hx => (heldUnder_iff.mp hx).1) hc
    rw [filter_eq_self]
    intro x hx
    simp [hn x hx]

theorem release_cases (h : release rows id token = (res, rows')) :
    (res = .error .queueAckRejected ∧ rows' = rows) ∨
    (res = .ok () ∧ (∃ r ∈ rows, r.messageID = id ∧ r.deliveryToken = some token) ∧
      rows' = updateWhere (heldUnder id token) (fun r => { r with deliveryToken := none, leaseUntil := none })
        rows) := by
  cases h
  by_cases hc : rows.countP (heldUnder id token) = 1
  · obtain ⟨r, hr, hh⟩ := countP_pos_iff.mp (by omega : 0 < rows.countP (heldUnder id token))
    exact .inr ⟨by simp [hc], ⟨r, hr, heldUnder_iff.mp hh⟩, rfl⟩
  · have hn := hkeyed.none_of_countP_ne_one (fun x _ hx => (heldUnder_iff.mp hx).1) hc
    exact .inl ⟨by simp [hc], updateWhere_none hn⟩

end

end Mossward.L4.Relay
