import Mossward.L1Encoding.Names
import Mossward.L1Encoding.Rfc3339Parse
import Mossward.L2Store.WorkerJob

/-!
# The worker's outbox

A worker keeps evidence and completions in an SQLite table until the server has
taken them; `internal/workerclient/outbox.go`. Payloads are encrypted, bound to
the identifier, kind and time of their row. Messages are read in the order of
the implicit `rowid`, one more than the largest in the table, so that rowids
come back after deletions. The cipher is a parameter. Every statement may fail;
a transaction that fails is rolled back.

Results:
* `within_enqueue`, `within_sublist`: the limits hold.
* `peek_row`, `enqueue_cases`.
-/
namespace Mossward.L4.Outbox

open L1.Names L1.Rfc3339 L2.WorkerJob

/-! ## Messages -/

def outboxIdentityLimit : Nat := 200

abbrev Bytes := List UInt8

/-- An `OutboxKind` is a string; two of them have names. -/
inductive OutboxKind
  | evidence
  | completion
  | other (kind : String)
deriving DecidableEq, Repr

structure OutboxLimits where
  maxItems : Nat
  maxBytes : Nat

structure OutboxMessage where
  id : String
  kind : OutboxKind
  payload : Bytes
  createdAt : Time
deriving DecidableEq

inductive OutboxError
  | outboxFull
  | outboxDuplicate
  | outboxEmpty
  | message (text : String)
  /-- an error of the database or the random source, under its context -/
  | failure (context : String)
  /-- the error of the caller's context -/
  | contextDone
  /-- the error of the sender -/
  | send (text : String)
deriving DecidableEq, Repr

/-- Mirrors `internal/workerclient/outbox.go:167-175`. -/
def validateOutboxMessage (message : OutboxMessage) (limits : OutboxLimits) : Except OutboxError Unit :=
  if trimSpace message.id.toList = [] || outboxIdentityLimit < message.id.utf8ByteSize ||
      message.payload.length = 0 || limits.maxBytes < message.payload.length || message.createdAt.isZero then
    .error (.message "scanner-worker outbox message is invalid")
  else if message.kind ≠ .evidence && message.kind ≠ .completion then
    .error (.message "scanner-worker outbox message kind is invalid")
  else .ok ()

/-! ## The cipher -/

/-- What the associated data encodes. -/
structure OutboxIdentity where
  id : String
  kind : OutboxKind
  createdAt : String

structure Cipher where
  sealBytes : Bytes → Bytes → Bytes → Bytes
  openBytes : Bytes → Bytes → Bytes → Option Bytes
  open_seal : ∀ nonce plaintext aad, openBytes nonce (sealBytes nonce plaintext aad) aad = some plaintext
  /-- `json.Marshal` of an identity -/
  marshal : OutboxIdentity → Bytes

/-- Mirrors `internal/workerclient/outbox.go:255-265`. -/
def Cipher.outboxAAD (a : Cipher) (id : String) (kind : OutboxKind) (createdAt : Time) : Bytes :=
  a.marshal { id := id, kind := kind, createdAt := formatTime createdAt.ns }

/-! ## The table -/

/-- A row of `outbox_messages`. -/
structure OutboxRow where
  rowid : Nat
  id : String
  kind : OutboxKind
  ciphertext : Bytes
  nonce : Bytes
  plaintextSize : Nat
  createdAt : String
deriving DecidableEq

/-- The rowid SQLite gives to the next row. -/
def nextRowid (t : List OutboxRow) : Nat := (t.map (·.rowid)).foldr max 0 + 1

def bytesUsed (t : List OutboxRow) : Nat := (t.map (·.plaintextSize)).sum

/-- Where an `Enqueue` may fail. -/
inductive EnqueueFault
  | nonce
  | begin
  | duplicate
  | capacity
  | insert
  | commit
deriving DecidableEq, Repr

/-- The context the error is returned under; that of a commit is returned as it
is. -/
def EnqueueFault.error : EnqueueFault → OutboxError
  | .nonce => .failure "create scanner-worker outbox nonce"
  | .begin => .failure "begin scanner-worker outbox enqueue"
  | .duplicate => .failure "check scanner-worker outbox duplicate"
  | .capacity => .failure "read scanner-worker outbox capacity"
  | .insert => .failure "enqueue scanner-worker outbox message"
  | .commit => .failure ""

/-- The row that stores a message. -/
def Cipher.row (a : Cipher) (rowid : Nat) (message : OutboxMessage) (nonce : Bytes) : OutboxRow where
  rowid := rowid
  id := message.id
  kind := message.kind
  ciphertext := a.sealBytes nonce message.payload (a.outboxAAD message.id message.kind message.createdAt)
  nonce := nonce
  plaintextSize := message.payload.length
  createdAt := formatTime message.createdAt.ns

/-- Whether a fault comes before the statement that follows it. -/
def early (fault : Option EnqueueFault) (points : List EnqueueFault) : Option OutboxError :=
  (fault.filter (· ∈ points)).map EnqueueFault.error

/-- Mirrors `internal/workerclient/outbox.go:124-165`. -/
def Cipher.enqueue (a : Cipher) (limits : OutboxLimits) (t : List OutboxRow) (message : OutboxMessage)
    (nonce : Bytes) (fault : Option EnqueueFault) : Except OutboxError Unit × List OutboxRow :=
  match validateOutboxMessage message limits with
  | .error e => (.error e, t)
  | .ok () =>
    match early fault [.nonce, .begin, .duplicate] with
    | some e => (.error e, t)
    | none =>
      if t.any (fun r => r.id = message.id) then (.error .outboxDuplicate, t)
      else
        match early fault [.capacity] with
        | some e => (.error e, t)
        | none =>
          if limits.maxItems ≤ t.length || limits.maxBytes < bytesUsed t + message.payload.length then
            (.error .outboxFull, t)
          else
            match early fault [.insert, .commit] with
            | some e => (.error e, t)
            | none => (.ok (), t ++ [a.row (nextRowid t) message nonce])

/-- `ORDER BY rowid LIMIT 1`. -/
def firstRow (t : List OutboxRow) : Option OutboxRow := firstBy (fun r r' => r.rowid ≤ r'.rowid) t

/-- Mirrors `internal/workerclient/outbox.go:177-201`. -/
def Cipher.peek (a : Cipher) (t : List OutboxRow) (fault : Bool) : Except OutboxError OutboxMessage :=
  if fault then .error (.failure "read scanner-worker outbox message")
  else
    match firstRow t with
    | none => .error .outboxEmpty
    | some r =>
      match parseTime r.createdAt with
      | none => .error (.message "scanner-worker outbox timestamp is invalid")
      | some createdAt =>
        match a.openBytes r.nonce r.ciphertext (a.outboxAAD r.id r.kind createdAt) with
        | none => .error (.message "scanner-worker outbox integrity verification failed")
        | some payload => .ok { id := r.id, kind := r.kind, payload := payload, createdAt := createdAt }

/-- Where an `Acknowledge` may fail: before the deletion, or when the rows it
deleted are counted. -/
inductive AcknowledgeFault
  | delete
  | count
deriving DecidableEq, Repr

/-- Mirrors `internal/workerclient/outbox.go:203-216`. -/
def acknowledge (t : List OutboxRow) (id : String) (fault : Option AcknowledgeFault) :
    Except OutboxError Unit × List OutboxRow :=
  match fault with
  | some .delete => (.error (.failure "acknowledge scanner-worker outbox message"), t)
  | some .count =>
    (.error (.failure "read scanner-worker outbox acknowledgement"), t.filter fun r => r.id ≠ id)
  | none =>
    (if t.countP (fun r => r.id = id) ≠ 1 then .error .outboxEmpty else .ok (), t.filter fun r => r.id ≠ id)

/-! ## Forwarding -/

/-- What the environment does in one round of the loop. -/
structure Round where
  canceled : Bool
  peekFault : Bool
  /-- the sender's error for a message, if any -/
  send : OutboxMessage → Option String
  acknowledgeFault : Option AcknowledgeFault

/-- What a `ForwardPending` did: its calls of the sender and whether they
returned nil, and its results. -/
structure Forwarded where
  sends : List (OutboxMessage × Bool)
  forwarded : Nat
  error : Option OutboxError
deriving DecidableEq

def Forwarded.after (r : Forwarded) (message : OutboxMessage) : Forwarded :=
  { r with sends := (message, true) :: r.sends }

/-- The loop of `ForwardPending`, with `n` rounds left. -/
def Cipher.forwardLoop (a : Cipher) (env : Nat → Round) :
    Nat → Nat → List OutboxRow → Forwarded × List OutboxRow
  | 0, forwarded, t => (⟨[], forwarded, none⟩, t)
  | n + 1, forwarded, t =>
    let round := env forwarded
    if round.canceled then (⟨[], forwarded, some .contextDone⟩, t)
    else
      match a.peek t round.peekFault with
      | .error .outboxEmpty => (⟨[], forwarded, none⟩, t)
      | .error e => (⟨[], forwarded, some e⟩, t)
      | .ok message =>
        match round.send message with
        | some text => (⟨[(message, false)], forwarded, some (.send text)⟩, t)
        | none =>
          match acknowledge t message.id round.acknowledgeFault with
          | (.error e, t) => (⟨[(message, true)], forwarded, some e⟩, t)
          | (.ok (), t) =>
            let (r, t) := a.forwardLoop env n (forwarded + 1) t
            (r.after message, t)

/-- Mirrors `internal/workerclient/outbox.go:228-251`. A nil sender is `none`. -/
def Cipher.forwardPending (a : Cipher) (t : List OutboxRow) (maximum : Int) (send : Option (Nat → Round)) :
    Forwarded × List OutboxRow :=
  match send with
  | none => (⟨[], 0, some (.message "scanner-worker outbox forwarding configuration is invalid")⟩, t)
  | some env =>
    if maximum < 1 then
      (⟨[], 0, some (.message "scanner-worker outbox forwarding configuration is invalid")⟩, t)
    else a.forwardLoop env maximum.toNat 0 t

/-! ## Rows -/

/-- The row stores the message. -/
def Stores (a : Cipher) (r : OutboxRow) (message : OutboxMessage) : Prop :=
  ∃ nonce, r = a.row r.rowid message nonce

section
variable {a : Cipher} {limits : OutboxLimits} {t : List OutboxRow}

variable {r : OutboxRow} {message : OutboxMessage}

theorem Stores.id_eq (h : Stores a r message) : r.id = message.id := by
  obtain ⟨nonce, hr⟩ := h
  rw [hr]
  rfl

theorem Stores.size_eq (h : Stores a r message) : r.plaintextSize = message.payload.length := by
  obtain ⟨nonce, hr⟩ := h
  rw [hr]
  rfl

theorem rowid_lt_next (hr : r ∈ t) : r.rowid < nextRowid t := Table.lt_succ_foldr_max (List.mem_map_of_mem hr)

theorem firstRow_cons (h : (r :: t).Pairwise fun r r' => r.rowid < r'.rowid) :
    firstRow (r :: t) = some r := by
  unfold firstRow
  simp only [firstBy]
  split
  · rfl
  · rename_i r' hr'
    have hl := (List.pairwise_cons.mp h).1 r' (firstBy_mem hr')
    rw [if_pos (by simpa using hl.le)]

theorem peek_row (hro : Stores a r message)
    (h : (r :: t).Pairwise fun r r' => r.rowid < r'.rowid) : a.peek (r :: t) false = .ok message := by
  obtain ⟨nonce, hr⟩ := hro
  unfold Cipher.peek
  rw [firstRow_cons h, hr]
  simp [Cipher.row, parseTime_formatTime, a.open_seal]

/-! ## Limits -/

def Within (limits : OutboxLimits) (t : List OutboxRow) : Prop :=
  t.length ≤ limits.maxItems ∧ bytesUsed t ≤ limits.maxBytes

theorem within_sublist {t' : List OutboxRow} (h : Within limits t) (hs : t'.Sublist t) : Within limits t' :=
  ⟨hs.length_le.trans h.1, (List.Sublist.sum_le_sum (hs.map _) fun _ _ => Nat.zero_le _).trans h.2⟩

/-- An `Enqueue` that fails changes nothing; one that succeeds finds room. -/
theorem enqueue_cases (msg : OutboxMessage) (nonce : Bytes) (fault : Option EnqueueFault) :
    (∃ e, a.enqueue limits t msg nonce fault = (.error e, t)) ∨
    (a.enqueue limits t msg nonce fault = (.ok (), t ++ [a.row (nextRowid t) msg nonce]) ∧
      t.length < limits.maxItems ∧ bytesUsed t + msg.payload.length ≤ limits.maxBytes) := by
  unfold Cipher.enqueue
  split
  · exact .inl ⟨_, rfl⟩
  split
  · exact .inl ⟨_, rfl⟩
  split
  · exact .inl ⟨_, rfl⟩
  split
  · exact .inl ⟨_, rfl⟩
  split
  · exact .inl ⟨_, rfl⟩
  rename_i hr
  split
  · exact .inl ⟨_, rfl⟩
  · simp only [Bool.or_eq_true, decide_eq_true_eq, not_or, not_le, not_lt] at hr
    exact .inr ⟨rfl, hr⟩

theorem within_enqueue (h : Within limits t) (msg : OutboxMessage) (nonce : Bytes)
    (fault : Option EnqueueFault) : Within limits (a.enqueue limits t msg nonce fault).2 := by
  rcases enqueue_cases (a := a) (t := t) msg nonce fault with ⟨e, he⟩ | ⟨ho, hi, hb⟩
  · rw [he]
    exact h
  · rw [ho]
    refine ⟨by simpa using hi, ?_⟩
    simpa [bytesUsed, Cipher.row] using hb

theorem acknowledge_sublist (t : List OutboxRow) (id : String) (fault : Option AcknowledgeFault) :
    (acknowledge t id fault).2.Sublist t := by
  unfold acknowledge
  split
  · exact List.Sublist.refl t
  · exact List.filter_sublist
  · exact List.filter_sublist

theorem forwardLoop_sublist (env : Nat → Round) (n fwd : Nat) : (a.forwardLoop env n fwd t).2.Sublist t := by
  induction n generalizing fwd t with
  | zero => exact List.Sublist.refl t
  | succ n ih =>
    simp only [Cipher.forwardLoop]
    split
    · exact List.Sublist.refl t
    split
    · exact List.Sublist.refl t
    · exact List.Sublist.refl t
    rename_i msg _
    split
    · exact List.Sublist.refl t
    have ha := acknowledge_sublist t msg.id (env fwd).acknowledgeFault
    split
    · rename_i h
      rw [h] at ha
      exact ha
    · rename_i h
      rw [h] at ha
      exact (ih (fwd + 1)).trans ha

end

end Mossward.L4.Outbox
