import Mossward.Core.Fifo
import Mossward.Core.Run
import Mossward.L4App.Outbox

/-!
# The outbox is a bounded queue

The outbox of `Outbox` side by side with a queue that keeps its history. The
queue has the same calls and meets the same failures and senders; it knows
nothing of tables, rowids and ciphers.

Results:
* `refines_enqueue`, `refines_acknowledge`, `refines_forwardLoop`: each call
  does to the table what the queue operation does to the queue, and returns the
  same.
* `outbox_fifo`.
-/
namespace Mossward.L4.Outbox

open Queue Run L1.Rfc3339 List

/-! ## The queue it implements -/

/-- `Enqueue`, of a queue. -/
def specEnqueue (limits : OutboxLimits) (f : Fifo OutboxMessage) (message : OutboxMessage)
    (fault : Option EnqueueFault) : Except OutboxError Unit × Fifo OutboxMessage :=
  match validateOutboxMessage message limits with
  | .error e => (.error e, f)
  | .ok () =>
    match early fault [.nonce, .begin, .duplicate] with
    | some e => (.error e, f)
    | none =>
      if f.contents.any (fun m => m.id = message.id) then (.error .outboxDuplicate, f)
      else
        match early fault [.capacity] with
        | some e => (.error e, f)
        | none =>
          if limits.maxItems ≤ f.contents.length ||
              limits.maxBytes < (f.contents.map (·.payload.length)).sum + message.payload.length then
            (.error .outboxFull, f)
          else
            match early fault [.insert, .commit] with
            | some e => (.error e, f)
            | none => (.ok (), f.accept message)

/-- `Peek`: the oldest message, as it was enqueued. -/
def specPeek (f : Fifo OutboxMessage) (fault : Bool) : Except OutboxError OutboxMessage :=
  if fault then .error (.failure "read scanner-worker outbox message")
  else
    match f.contents with
    | [] => .error .outboxEmpty
    | message :: _ => .ok message

/-- `Acknowledge`: the message with the identifier is removed. -/
def specAcknowledge (f : Fifo OutboxMessage) (id : String) (fault : Option AcknowledgeFault) :
    Except OutboxError Unit × Fifo OutboxMessage :=
  match fault with
  | some .delete => (.error (.failure "acknowledge scanner-worker outbox message"), f)
  | some .count =>
    (.error (.failure "read scanner-worker outbox acknowledgement"), f.removeWhere fun m => m.id = id)
  | none =>
    (if f.contents.countP (fun m => m.id = id) ≠ 1 then .error .outboxEmpty else .ok (),
      f.removeWhere fun m => m.id = id)

/-- The loop of `ForwardPending`: the oldest message is offered to the sender,
and leaves when the sender has returned nil. -/
def specForwardLoop (env : Nat → Round) :
    Nat → Nat → Fifo OutboxMessage → Forwarded × Fifo OutboxMessage
  | 0, forwarded, f => (⟨[], forwarded, none⟩, f)
  | n + 1, forwarded, f =>
    let round := env forwarded
    if round.canceled then (⟨[], forwarded, some .contextDone⟩, f)
    else
      match specPeek f round.peekFault with
      | .error .outboxEmpty => (⟨[], forwarded, none⟩, f)
      | .error e => (⟨[], forwarded, some e⟩, f)
      | .ok message =>
        match round.send message with
        | some text => (⟨[(message, false)], forwarded, some (.send text)⟩, f.offer false)
        | none =>
          match round.acknowledgeFault with
          | some .delete =>
            (⟨[(message, true)], forwarded, some (.failure "acknowledge scanner-worker outbox message")⟩,
              f.offer true)
          | some .count =>
            (⟨[(message, true)], forwarded, some (.failure "read scanner-worker outbox acknowledgement")⟩,
              (f.offer true).deliver)
          | none =>
            let (r, f) := specForwardLoop env n (forwarded + 1) (f.offer true).deliver
            (r.after message, f)

def specForwardPending (f : Fifo OutboxMessage) (maximum : Int) (send : Option (Nat → Round)) :
    Forwarded × Fifo OutboxMessage :=
  match send with
  | none => (⟨[], 0, some (.message "scanner-worker outbox forwarding configuration is invalid")⟩, f)
  | some env =>
    if maximum < 1 then
      (⟨[], 0, some (.message "scanner-worker outbox forwarding configuration is invalid")⟩, f)
    else specForwardLoop env maximum.toNat 0 f

/-! ## The table holds the queue -/

structure Refines (a : Cipher) (t : List OutboxRow) (f : Fifo OutboxMessage) : Prop where
  inv : f.Inv
  rows : List.Forall₂ (Stores a) t f.contents
  rowids : t.Pairwise fun r r' => r.rowid < r'.rowid
  ids : (t.map (·.id)).Nodup

section
variable {a : Cipher} {t : List OutboxRow} {f : Fifo OutboxMessage}

theorem refines_empty (a : Cipher) : Refines a [] .empty := ⟨Fifo.inv_empty, .nil, .nil, .nil⟩

variable {q : List OutboxMessage}

section
variable (h : List.Forall₂ (Stores a) t q)
include h

theorem any_id_eq (id : String) : t.any (fun r => r.id = id) = q.any (fun m => m.id = id) := by
  induction h with
  | nil => rfl
  | cons hr _ ih => simp only [any_cons, hr.id_eq, ih]

theorem countP_id_eq (id : String) : t.countP (fun r => r.id = id) = q.countP (fun m => m.id = id) := by
  induction h with
  | nil => rfl
  | cons hr _ ih => simp only [countP_cons, hr.id_eq, ih]

theorem bytesUsed_eq : bytesUsed t = (q.map (·.payload.length)).sum := by
  induction h with
  | nil => rfl
  | cons hr _ ih =>
    unfold bytesUsed at ih ⊢
    simp only [map_cons, sum_cons, hr.size_eq, ih]

theorem forall₂_filter (id : String) :
    List.Forall₂ (Stores a) (t.filter fun r => r.id ≠ id) (q.filter fun m => !decide (m.id = id)) := by
  induction h with
  | nil => exact .nil
  | @cons r m _ _ hrow _ ih =>
    by_cases hi : m.id = id
    · simpa [hrow.id_eq, hi] using ih
    · simpa [hrow.id_eq, hi] using List.Forall₂.cons hrow ih

end

section
variable (h : Refines a t f)
include h

theorem refines_peek (fault : Bool) : a.peek t fault = specPeek f fault := by
  cases fault with
  | true => rfl
  | false =>
    have hr := h.rows
    unfold specPeek
    cases hq : f.contents with
    | nil =>
      rw [hq, forall₂_nil_right_iff] at hr
      rw [hr]
      rfl
    | cons msg q =>
      rw [hq] at hr
      cases ht : t with
      | nil => rw [ht] at hr; cases hr
      | cons r t' =>
        rw [ht] at hr
        have hs := h.rowids
        rw [ht] at hs
        cases hr with
        | cons hro _ => exact peek_row hro hs

theorem refines_enqueue (lim : OutboxLimits) (msg : OutboxMessage) (nonce : Bytes)
    (fault : Option EnqueueFault) :
    (a.enqueue lim t msg nonce fault).1 = (specEnqueue lim f msg fault).1 ∧
    Refines a (a.enqueue lim t msg nonce fault).2 (specEnqueue lim f msg fault).2 := by
  unfold Cipher.enqueue specEnqueue
  rw [any_id_eq h.rows, h.rows.length_eq, bytesUsed_eq h.rows]
  cases validateOutboxMessage msg lim with
  | error e => exact ⟨rfl, h⟩
  | ok valid =>
  cases early fault [.nonce, .begin, .duplicate] with
  | some e => exact ⟨rfl, h⟩
  | none =>
  by_cases hd : f.contents.any (fun m => m.id = msg.id)
  · simp only [if_pos hd]
    exact ⟨trivial, h⟩
  simp only [if_neg hd]
  cases early fault [.capacity] with
  | some e => exact ⟨rfl, h⟩
  | none =>
  by_cases hf : (lim.maxItems ≤ f.contents.length ||
      lim.maxBytes < (f.contents.map (·.payload.length)).sum + msg.payload.length) = true
  · simp only [if_pos hf]
    exact ⟨trivial, h⟩
  simp only [if_neg hf]
  cases early fault [.insert, .commit] with
  | some e => exact ⟨rfl, h⟩
  | none =>
  refine ⟨rfl, Fifo.inv_accept h.inv msg, ?_, ?_, ?_⟩
  · rw [Fifo.contents_accept h.inv]
    exact rel_append h.rows (.cons ⟨nonce, rfl⟩ .nil)
  · refine pairwise_append.mpr ⟨h.rowids, pairwise_singleton _ _, fun r hr r' hr' => ?_⟩
    rw [mem_singleton.mp hr']
    exact rowid_lt_next hr
  · rw [← any_id_eq h.rows, any_eq_true] at hd
    rw [map_append]
    refine nodup_append.mpr ⟨h.ids, nodup_singleton _, fun x hx y hy hxy => hd ?_⟩
    obtain ⟨r, hr, rfl⟩ := mem_map.mp hx
    obtain rfl : y = msg.id := by simpa [Cipher.row] using hy
    exact ⟨r, hr, decide_eq_true hxy⟩

theorem refines_filter (id : String) :
    Refines a (t.filter fun r => r.id ≠ id) (f.removeWhere fun m => m.id = id) := by
  refine ⟨Fifo.inv_removeWhere h.inv _, ?_, h.rowids.filter _, h.ids.sublist (filter_sublist.map _)⟩
  rw [Fifo.contents_removeWhere]
  exact forall₂_filter h.rows id

theorem refines_acknowledge (id : String) (fault : Option AcknowledgeFault) :
    (acknowledge t id fault).1 = (specAcknowledge f id fault).1 ∧
    Refines a (acknowledge t id fault).2 (specAcknowledge f id fault).2 := by
  unfold acknowledge specAcknowledge
  cases fault with
  | none =>
    rw [countP_id_eq h.rows]
    exact ⟨rfl, refines_filter h id⟩
  | some fault =>
    cases fault with
    | delete => exact ⟨rfl, h⟩
    | count => exact ⟨rfl, refines_filter h id⟩

theorem refines_offer (taken : Bool) : Refines a t (f.offer taken) :=
  ⟨Fifo.inv_offer h.inv taken, by rw [Fifo.contents_offer]; exact h.rows, h.rowids, h.ids⟩

theorem refines_deliver {msg : OutboxMessage} (hq : f.contents = msg :: q) :
    t.countP (fun r => r.id = msg.id) = 1 ∧
    Refines a (t.filter fun r => r.id ≠ msg.id) (f.offer true).deliver := by
  have hr := h.rows
  rw [hq] at hr
  cases ht : t with
  | nil => rw [ht] at hr; cases hr
  | cons r t' =>
    rw [ht] at hr
    have hi := h.ids
    have hs := h.rowids
    rw [ht] at hi hs
    rw [map_cons, nodup_cons] at hi
    cases hr with
    | cons hro hre =>
      have hid := hro.id_eq
      have ho : ∀ x ∈ t', x.id ≠ msg.id := by
        intro x hx he
        exact hi.1 (mem_map.mpr ⟨x, hx, he.trans hid.symm⟩)
      have hf : (r :: t').filter (fun r => r.id ≠ msg.id) = t' := by
        rw [filter_cons_of_neg (by simp [hid])]
        exact filter_eq_self.mpr fun x hx => by simpa using ho x hx
      have hc : t'.countP (fun r => r.id = msg.id) = 0 :=
        countP_eq_zero.mpr fun x hx => by simpa using ho x hx
      refine ⟨by simp [hid, hc], ?_⟩
      rw [hf]
      refine ⟨Fifo.inv_deliver h.inv, ?_, (pairwise_cons.mp hs).2, hi.2⟩
      rw [Fifo.contents_deliver (Fifo.inv_offer h.inv true), Fifo.contents_offer, hq]
      exact hre

end

theorem refines_forwardLoop (env : Nat → Round) (n fwd : Nat) (h : Refines a t f) :
    (a.forwardLoop env n fwd t).1 = (specForwardLoop env n fwd f).1 ∧
    Refines a (a.forwardLoop env n fwd t).2 (specForwardLoop env n fwd f).2 := by
  induction n generalizing fwd t f with
  | zero => exact ⟨rfl, h⟩
  | succ n ih =>
    simp only [Cipher.forwardLoop, specForwardLoop]
    rw [refines_peek h]
    by_cases hc : (env fwd).canceled
    · simp only [if_pos hc]
      exact ⟨trivial, h⟩
    simp only [if_neg hc]
    cases hp : specPeek f (env fwd).peekFault with
    | error e => cases e <;> exact ⟨rfl, h⟩
    | ok msg =>
      dsimp only
      have hq : ∃ q, f.contents = msg :: q := by
        unfold specPeek at hp
        split at hp
        · cases hp
        split at hp
        · cases hp
        · rename_i m q hq
          cases hp
          exact ⟨q, hq⟩
      obtain ⟨q, hq⟩ := hq
      obtain ⟨hco, hd⟩ := refines_deliver h hq
      cases hs : (env fwd).send msg with
      | some text => exact ⟨rfl, refines_offer h false⟩
      | none =>
        cases ha : (env fwd).acknowledgeFault with
        | some fault =>
          cases fault with
          | delete => exact ⟨rfl, refines_offer h true⟩
          | count => exact ⟨rfl, hd⟩
        | none =>
          have hdo : acknowledge t msg.id none = (.ok (), t.filter fun r => r.id ≠ msg.id) := by
            simp [acknowledge, hco]
          rw [hdo]
          obtain ⟨hr, hre⟩ := ih (fwd + 1) hd
          exact ⟨congrArg (Forwarded.after · msg) hr, hre⟩

theorem refines_forwardPending (h : Refines a t f) (max : Int) (send : Option (Nat → Round)) :
    (a.forwardPending t max send).1 = (specForwardPending f max send).1 ∧
    Refines a (a.forwardPending t max send).2 (specForwardPending f max send).2 := by
  unfold Cipher.forwardPending specForwardPending
  cases send with
  | none => exact ⟨rfl, h⟩
  | some env =>
    by_cases hm : max < 1
    · simp only [if_pos hm]
      exact ⟨trivial, h⟩
    · simp only [if_neg hm]
      exact refines_forwardLoop _ _ _ h

end

/-! ## Every sequence of calls -/

inductive Op
  | enqueue (message : OutboxMessage) (nonce : Bytes) (fault : Option EnqueueFault)
  | peek (fault : Bool)
  | acknowledge (id : String) (fault : Option AcknowledgeFault)
  | forward (maximum : Int) (send : Option (Nat → Round))

inductive Answer
  | enqueued (result : Except OutboxError Unit)
  | peeked (result : Except OutboxError OutboxMessage)
  | acknowledged (result : Except OutboxError Unit)
  | forwarded (result : Forwarded)

def Cipher.exec (a : Cipher) (limits : OutboxLimits) (t : List OutboxRow) : Op → Answer × List OutboxRow
  | .enqueue message nonce fault =>
    (.enqueued (a.enqueue limits t message nonce fault).1, (a.enqueue limits t message nonce fault).2)
  | .peek fault => (.peeked (a.peek t fault), t)
  | .acknowledge id fault => (.acknowledged (acknowledge t id fault).1, (acknowledge t id fault).2)
  | .forward maximum send =>
    (.forwarded (a.forwardPending t maximum send).1, (a.forwardPending t maximum send).2)

def specExec (limits : OutboxLimits) (f : Fifo OutboxMessage) : Op → Answer × Fifo OutboxMessage
  | .enqueue message _ fault =>
    (.enqueued (specEnqueue limits f message fault).1, (specEnqueue limits f message fault).2)
  | .peek fault => (.peeked (specPeek f fault), f)
  | .acknowledge id fault => (.acknowledged (specAcknowledge f id fault).1, (specAcknowledge f id fault).2)
  | .forward maximum send =>
    (.forwarded (specForwardPending f maximum send).1, (specForwardPending f maximum send).2)

/-- A state with the calls that led to it and their answers. -/
structure History (σ : Type) where
  state : σ
  calls : List (Op × Answer)

def History.step {σ : Type} (exec : σ → Op → Answer × σ) (h : History σ) (op : Op) : History σ :=
  ⟨(exec h.state op).2, h.calls ++ [(op, (exec h.state op).1)]⟩

/-- The message whose `Enqueue` returned nil. -/
def acceptedBy : Op × Answer → List OutboxMessage
  | (.enqueue message _ _, .enqueued (.ok ())) => [message]
  | _ => []

/-- The calls of the sender, and whether they returned nil. -/
def sendsBy : Op × Answer → List (OutboxMessage × Bool)
  | (_, .forwarded result) => result.sends
  | _ => []

section
variable {f : Fifo OutboxMessage}

/-- An `Acknowledge` whose `DELETE` runs finds the accepted message `n` in the queue,
under its identifier. -/
def Deletes (f : Fifo OutboxMessage) (id : String) (fault : Option AcknowledgeFault) (n : Nat) : Prop :=
  fault ≠ some .delete ∧ n ∈ f.waiting ∧ ∃ message, f.accepted[n]? = some message ∧ message.id = id

/-- What a call does to the history of the queue. -/
structure SpecEffect (f f' : Fifo OutboxMessage) (call : Op × Answer) : Prop where
  accepted : f'.accepted = f.accepted ++ acceptedBy call
  offered : f'.offered = f.offered ++ sendsBy call
  removed : ∀ n ∈ f'.removed, n ∈ f.removed ∨ ∃ id fault, call.1 = .acknowledge id fault ∧ Deletes f id fault n

theorem specPeek_ok {fault : Bool} {msg : OutboxMessage} (h : specPeek f fault = .ok msg) :
    f.contents.head? = some msg := by
  unfold specPeek at h
  split at h
  · cases h
  split at h
  · cases h
  rename_i hq
  cases h
  rw [hq]
  rfl

theorem specForwardLoop_history (env : Nat → Round) (n fwd : Nat) (h : f.Inv) :
    (specForwardLoop env n fwd f).2.accepted = f.accepted ∧
    (specForwardLoop env n fwd f).2.offered = f.offered ++ (specForwardLoop env n fwd f).1.sends ∧
    (specForwardLoop env n fwd f).2.removed = f.removed := by
  have hf : ∀ (g : Fifo OutboxMessage) (taken : Bool),
      (g.offer taken).accepted = g.accepted ∧ (g.offer taken).removed = g.removed := by
    intro g taken
    unfold Fifo.offer
    split <;> exact ⟨rfl, rfl⟩
  induction n generalizing fwd f with
  | zero => exact ⟨rfl, (append_nil _).symm, rfl⟩
  | succ n ih =>
    simp only [specForwardLoop]
    split
    · exact ⟨rfl, (append_nil _).symm, rfl⟩
    cases hp : specPeek f (env fwd).peekFault with
    | error e => cases e <;> exact ⟨rfl, (append_nil _).symm, rfl⟩
    | ok msg =>
      dsimp only
      have hh := specPeek_ok hp
      cases (env fwd).send msg with
      | some text => exact ⟨(hf f false).1, Fifo.offered_offer h hh false, (hf f false).2⟩
      | none =>
        have ht := Fifo.offered_offer h hh true
        cases (env fwd).acknowledgeFault with
        | some fault => cases fault <;> exact ⟨(hf f true).1, ht, (hf f true).2⟩
        | none =>
          obtain ⟨ha, ho, hr⟩ := ih (fwd + 1) (Fifo.inv_deliver h)
          have hd : (f.offer true).deliver.offered = f.offered ++ [(msg, true)] := ht
          refine ⟨ha.trans (hf f true).1, ?_, hr.trans (hf f true).2⟩
          rw [hd, append_assoc] at ho
          exact ho

theorem specEnqueue_effect (lim : OutboxLimits) (h : f.Inv) (msg : OutboxMessage) (nonce : Bytes)
    (fault : Option EnqueueFault) :
    SpecEffect f (specEnqueue lim f msg fault).2
      (.enqueue msg nonce fault, .enqueued (specEnqueue lim f msg fault).1) := by
  have hs : ∀ e, SpecEffect f f (.enqueue msg nonce fault, .enqueued (.error e)) := fun e =>
    ⟨(append_nil _).symm, (append_nil _).symm, fun _ hn => .inl hn⟩
  unfold specEnqueue
  split
  · exact hs _
  split
  · exact hs _
  split
  · exact hs _
  split
  · exact hs _
  split
  · exact hs _
  split
  · exact hs _
  · exact ⟨rfl, (Fifo.offered_accept h msg).trans (append_nil _).symm, fun _ hn => .inl hn⟩

theorem removeWhere_effect {id : String} {fault : Option AcknowledgeFault} (hf : fault ≠ some .delete)
    (res : Except OutboxError Unit) :
    SpecEffect f (f.removeWhere fun m => m.id = id) (.acknowledge id fault, .acknowledged res) := by
  refine ⟨(append_nil _).symm, (append_nil _).symm, fun n hn => ?_⟩
  rcases mem_append.mp hn with hn | hn
  · exact .inl hn
  obtain ⟨hw, hs⟩ := mem_filter.mp hn
  simp only [Fifo.selects, Option.any_eq_true, decide_eq_true_eq] at hs
  exact .inr ⟨id, fault, rfl, hf, hw, hs⟩

theorem specExec_effect (lim : OutboxLimits) (h : f.Inv) (op : Op) :
    SpecEffect f (specExec lim f op).2 (op, (specExec lim f op).1) := by
  cases op with
  | enqueue msg nonce fault => exact specEnqueue_effect lim h msg nonce fault
  | peek fault => exact ⟨(append_nil _).symm, (append_nil _).symm, fun _ hn => .inl hn⟩
  | acknowledge id fault =>
    simp only [specExec, specAcknowledge]
    split
    · exact ⟨(append_nil _).symm, (append_nil _).symm, fun _ hn => .inl hn⟩
    · exact removeWhere_effect (by simp) _
    · exact removeWhere_effect (by simp) _
  | forward max send =>
    simp only [specExec, specForwardPending]
    split
    · exact ⟨(append_nil _).symm, (append_nil _).symm, fun _ hn => .inl hn⟩
    split
    · exact ⟨(append_nil _).symm, (append_nil _).symm, fun _ hn => .inl hn⟩
    · rename_i env _
      obtain ⟨ha, ho, hr⟩ := specForwardLoop_history env max.toNat 0 h
      exact ⟨ha.trans (append_nil _).symm, ho, fun _ hn => .inl (hr ▸ hn)⟩

end

/-! ## Limits -/

variable {limits : OutboxLimits}

theorem within_exec {a : Cipher} {t : List OutboxRow} (h : Within limits t) (op : Op) :
    Within limits (a.exec limits t op).2 := by
  cases op with
  | enqueue msg nonce fault => exact within_enqueue h msg nonce fault
  | peek fault => exact h
  | acknowledge id fault => exact within_sublist h (acknowledge_sublist t id fault)
  | forward max send =>
    simp only [Cipher.exec, Cipher.forwardPending]
    split
    · exact h
    split
    · exact h
    · exact within_sublist h (forwardLoop_sublist _ _ _)

/-! ## The outbox and the queue side by side -/

structure Simulates (a : Cipher) (limits : OutboxLimits) (c : History (List OutboxRow))
    (s : History (Fifo OutboxMessage)) : Prop where
  calls : c.calls = s.calls
  refines : Refines a c.state s.state
  within : Within limits c.state
  accepted : s.state.accepted = c.calls.flatMap acceptedBy
  offered : s.state.offered = c.calls.flatMap sendsBy

theorem simulates_empty (a : Cipher) (limits : OutboxLimits) : Simulates a limits ⟨[], []⟩ ⟨.empty, []⟩ :=
  ⟨rfl, refines_empty a, ⟨Nat.zero_le _, Nat.zero_le _⟩, rfl, rfl⟩

theorem refines_exec {a : Cipher} {t : List OutboxRow} {f : Fifo OutboxMessage} (h : Refines a t f)
    (lim : OutboxLimits) (op : Op) : (a.exec lim t op).1 = (specExec lim f op).1 ∧
    Refines a (a.exec lim t op).2 (specExec lim f op).2 := by
  cases op with
  | enqueue msg nonce fault =>
    obtain ⟨hr, hre⟩ := refines_enqueue h lim msg nonce fault
    exact ⟨congrArg Answer.enqueued hr, hre⟩
  | peek fault => exact ⟨congrArg Answer.peeked (refines_peek h fault), h⟩
  | acknowledge id fault =>
    obtain ⟨hr, hre⟩ := refines_acknowledge h id fault
    exact ⟨congrArg Answer.acknowledged hr, hre⟩
  | forward max send =>
    obtain ⟨hr, hre⟩ := refines_forwardPending h max send
    exact ⟨congrArg Answer.forwarded hr, hre⟩

section
variable {a : Cipher} {c : History (List OutboxRow)} {s : History (Fifo OutboxMessage)} (h : Simulates a limits c s)
include h

theorem simulates_step (op : Op) :
    Simulates a limits (c.step (a.exec limits) op) (s.step (specExec limits) op) := by
  obtain ⟨hr, hre⟩ := refines_exec h.refines limits op
  have he := specExec_effect limits h.refines.inv op
  refine ⟨?_, hre, within_exec h.within op, ?_, ?_⟩
  · simp only [History.step, hr, h.calls]
  · simp only [History.step, flatMap_append, flatMap_singleton, hr]
    rw [← h.accepted]
    exact he.accepted
  · simp only [History.step, flatMap_append, flatMap_singleton, hr]
    rw [← h.offered]
    exact he.offered

theorem simulates_run (ops : List Op) : Simulates a limits (run (History.step (a.exec limits)) c ops)
      (run (History.step (specExec limits)) s ops) := by
  induction ops generalizing c s with
  | nil => exact h
  | cons op ops ih => exact ih (simulates_step h op)

end

/-- The queue after a sequence of calls on an empty one. -/
def queueAfter (limits : OutboxLimits) (ops : List Op) : Fifo OutboxMessage :=
  run (fun f op => (specExec limits f op).2) .empty ops

theorem queueAfter_eq (limits : OutboxLimits) (ops : List Op) :
    (run (History.step (specExec limits)) ⟨.empty, []⟩ ops).state = queueAfter limits ops := by
  have hs : ∀ s : History (Fifo OutboxMessage),
      (run (History.step (specExec limits)) s ops).state = run (fun f op => (specExec limits f op).2) s.state ops := by
    induction ops with
    | nil => exact fun _ => rfl
    | cons op ops ih => exact fun s => ih (s.step (specExec limits) op)
  exact hs _

theorem simulates_queueAfter (a : Cipher) (limits : OutboxLimits) (ops : List Op) :
    ∃ calls, Simulates a limits (run (History.step (a.exec limits)) ⟨[], []⟩ ops)
      ⟨queueAfter limits ops, calls⟩ := by
  rw [← queueAfter_eq]
  exact ⟨_, simulates_run (simulates_empty a limits) ops⟩

/-- What was removed, an `Acknowledge` removed that found it in the queue. -/
theorem removed_queueAfter (a : Cipher) (limits : OutboxLimits) (ops : List Op) :
    ∀ n ∈ (queueAfter limits ops).removed, ∃ before id fault after,
      ops = before ++ .acknowledge id fault :: after ∧ Deletes (queueAfter limits before) id fault n := by
  induction ops using List.reverseRecOn with
  | nil => exact fun n hn => by cases hn
  | append_singleton ops op ih =>
    intro n hn
    have hq : queueAfter limits (ops ++ [op]) = (specExec limits (queueAfter limits ops) op).2 := by
      unfold queueAfter
      rw [run_append]
      rfl
    obtain ⟨_, hs⟩ := simulates_queueAfter a limits ops
    rw [hq] at hn
    rcases (specExec_effect limits hs.refines.inv op).removed n hn with hold | ⟨id, fault, rfl, hd⟩
    · obtain ⟨before, id, fault, after, rfl, hd⟩ := ih n hold
      exact ⟨before, id, fault, after ++ [op], by simp, hd⟩
    · exact ⟨ops, id, fault, [], rfl, hd⟩

/-- **Result.** After any sequence of calls on a new outbox, with any failures
and any senders, for the queue `f` after the same calls: its accepted messages are
those whose `Enqueue` returned nil, in that order, and

1. the messages given to senders are the offers of the queue, in the order of
   acceptance;
2. a message that is not in the queue any more was given to a sender that
   returned nil, or an `Acknowledge` of its identifier, made while the message was
   in the queue, has run its `DELETE`;
3. the rows of the table store the messages in the queue, one row for each, in
   the order of acceptance;
4. `Peek` returns the oldest of them, as it was enqueued;
5. the limits hold;
6. an `Enqueue` that fails changes nothing. -/
theorem outbox_fifo (a : Cipher) (limits : OutboxLimits) (ops : List Op) :
    let h := run (History.step (a.exec limits)) ⟨[], []⟩ ops
    let f := queueAfter limits ops
    f.accepted = h.calls.flatMap acceptedBy ∧
      (f.offered = h.calls.flatMap sendsBy ∧ f.offered.length = f.offers.length ∧
        (f.offers.map Prod.fst).Pairwise (· ≤ ·)) ∧
      (∀ n < f.accepted.length, n ∈ f.waiting ∨ (n, true) ∈ f.offers ∨
        ∃ before id fault after, ops = before ++ .acknowledge id fault :: after ∧
          Deletes (queueAfter limits before) id fault n) ∧
      (f.waiting.Pairwise (· < ·) ∧ (∀ n ∈ f.waiting, n < f.accepted.length) ∧
        List.Forall₂ (fun r n => ∃ message, f.accepted[n]? = some message ∧ Stores a r message)
          h.state f.waiting) ∧
      (∀ fault, a.peek h.state fault = specPeek f fault) ∧
      (h.state.length ≤ limits.maxItems ∧ bytesUsed h.state ≤ limits.maxBytes) ∧
      ∀ message nonce fault e, (a.enqueue limits h.state message nonce fault).1 = .error e →
        (a.enqueue limits h.state message nonce fault).2 = h.state := by
  intro h f
  obtain ⟨_, hs⟩ := simulates_queueAfter a limits ops
  have hi := hs.refines.inv
  refine ⟨hs.accepted, ⟨hs.offered, ?_, hi.order⟩, fun n hn => ?_,
    ⟨hi.sorted, hi.bounded, ?_⟩, refines_peek hs.refines, hs.within, fun message nonce fault e he => ?_⟩
  · exact Fifo.offered_length hi
  · rcases hi.departed n hn with hw | ht | hr
    · exact .inl hw
    · exact .inr (.inl ht)
    · exact .inr (.inr (removed_queueAfter a limits ops n hr))
  · exact Fifo.forall₂_contents hi hs.refines.rows
  · rcases @enqueue_cases a limits h.state message nonce fault with ⟨e', he'⟩ | ⟨ho, -⟩
    · rw [he']
    · rw [ho] at he
      cases he

end Mossward.L4.Outbox
