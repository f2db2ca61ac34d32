import Mossward.L4App.OutboxQueue

/-!
# Delivery to a server that rejects some messages

`Transport.Deliver` posts a message and takes every status outside 200 to 299
for an error; `ForwardPending` ends at the first error of its sender. A message
that the server rejects for good is therefore tried again by every call, and
what was enqueued after it waits behind it.

Results: `forwardOutbox_delivers`, `calls_deliver`, `delivery_iff`,
`delivery_blocked`.
-/
namespace Mossward.L4.Outbox

open Queue Run L1.Rfc3339 L2.Schema List

/-! ## The transport -/

/-- A server that answers every request, with a status that says success or
client error and depends on the message alone. -/
structure Receiver where
  status : OutboxMessage → Nat
  answers : ∀ message, (200 ≤ status message ∧ status message < 300) ∨
    (400 ≤ status message ∧ status message < 500)

def Receiver.rejects (s : Receiver) (message : OutboxMessage) : Bool := 400 ≤ s.status message

/-- The error of `Deliver`, if any; mirrors
`internal/workerclient/transport.go:117-134`. -/
def Receiver.deliver (s : Receiver) (message : OutboxMessage) : Option String :=
  if message.kind ≠ .completion && message.kind ≠ .evidence then
    some "scanner-worker outbox message kind is unsupported"
  else if s.status message < 200 || 300 ≤ s.status message then
    some ("scanner-worker server returned HTTP " ++ toString (s.status message))
  else none

/-- A round in which nothing but the server can fail. -/
def Receiver.round (s : Receiver) : Round where
  canceled := false
  peekFault := false
  send := s.deliver
  acknowledgeFault := none

/-- A call of `ForwardOutbox`, `internal/workerclient/transport.go:136-141`, with
the deliveries so far. -/
def Cipher.forwardOutbox (a : Cipher) (s : Receiver) (w : List OutboxRow × List (OutboxMessage × Bool))
    (maximum : Int) : List OutboxRow × List (OutboxMessage × Bool) :=
  let (result, t) := a.forwardPending w.1 maximum (some fun _ => s.round)
  (t, w.2 ++ result.sends)

/-- The messages in the table, each as `Peek` would read it. -/
def Cipher.messages (a : Cipher) (t : List OutboxRow) : List OutboxMessage :=
  t.filterMap fun r => (a.peek [r] false).toOption

/-! ## One call -/

section
variable {a : Cipher} {s : Receiver}

theorem messages_eq {t : List OutboxRow} {f : Fifo OutboxMessage} (h : Refines a t f) :
    a.messages t = f.contents := by
  unfold Cipher.messages
  have hr := h.rows
  generalize f.contents = q at hr
  clear h
  induction hr with
  | nil => rfl
  | @cons r message t q hrow _ ih =>
    have hre : (a.peek [r] false).toOption = some message := by
      rw [peek_row hrow (pairwise_singleton _ _)]
      rfl
    simp only [filterMap_cons, hre, ih]

variable {message : OutboxMessage}

theorem deliver_eq_none (hki : message.kind = .evidence ∨ message.kind = .completion) :
    s.deliver message = none ↔ s.rejects message = false := by
  have hk : (message.kind ≠ .completion && message.kind ≠ .evidence) = false := by
    rcases hki with hk | hk <;> simp [hk]
  unfold Receiver.deliver Receiver.rejects
  rw [hk]
  rcases s.answers message with ⟨hl, hh⟩ | ⟨hl, hh⟩
  · have hs : (s.status message < 200 || 300 ≤ s.status message) = false := by
      simp only [Bool.or_eq_false_iff, decide_eq_false_iff_not]
      omega
    rw [hs]
    simp only [Bool.false_eq_true, if_false, true_iff, decide_eq_false_iff_not]
    omega
  have hs : (s.status message < 200 || 300 ≤ s.status message) = true := by
    simp only [Bool.or_eq_true, decide_eq_true_eq]
    omega
  rw [hs]
  simp [hl]

def accepts (s : Receiver) (message : OutboxMessage) : Bool := !s.rejects message

theorem forwardLoop_delivers (n fwd : Nat) {f : Fifo OutboxMessage} (h : f.Inv)
    (hk : ∀ m ∈ f.contents, m.kind = .evidence ∨ m.kind = .completion) :
    (specForwardLoop (fun _ => s.round) n fwd f).2.contents =
      f.contents.drop (min n (f.contents.takeWhile (accepts s)).length) ∧
    ∀ m, (m, true) ∈ (specForwardLoop (fun _ => s.round) n fwd f).1.sends ↔
      m ∈ (f.contents.takeWhile (accepts s)).take n := by
  induction n generalizing fwd f with
  | zero => simp [specForwardLoop]
  | succ n ih =>
    simp only [specForwardLoop, Receiver.round, specPeek]
    cases hq : f.contents with
    | nil => simp [hq]
    | cons msg q =>
      have hki := hk msg (by simp [hq])
      simp only [Bool.false_eq_true, if_false]
      by_cases hr : s.rejects msg
      · -- the loop ends here, and would at every later call
        have hne : s.deliver msg ≠ none := fun he => by
          rw [(deliver_eq_none hki).mp he] at hr
          cases hr
        obtain ⟨text, ht⟩ := Option.ne_none_iff_exists'.mp hne
        simp [ht, accepts, hr, hq]
      have hn : s.deliver msg = none := (deliver_eq_none hki).mpr (by simpa using hr)
      have ha : accepts s msg = true := by simp [accepts, hr]
      have hre : (f.offer true).deliver.contents = q := by
        rw [Fifo.contents_deliver (Fifo.inv_offer h true), Fifo.contents_offer, hq]
        rfl
      obtain ⟨hc, hs⟩ := ih (fwd + 1) (Fifo.inv_deliver h) (by
        rw [hre]
        exact fun m hm => hk m (by simp [hq, hm]))
      rw [hre] at hc hs
      simp only [hn, takeWhile_cons_of_pos ha, length_cons, take_succ_cons]
      refine ⟨?_, fun m => ?_⟩
      · rw [Nat.succ_min_succ]
        exact hc
      · simp only [Forwarded.after, mem_cons, Prod.mk.injEq, and_true]
        exact or_congr Iff.rfl (hs m)

/-! ## Enough calls -/

theorem takeWhile_drop_min {α : Type} (p : α → Bool) (l : List α) (n : Nat) :
    (l.drop (min n (l.takeWhile p).length)).takeWhile p = (l.takeWhile p).drop n := by
  induction l generalizing n with
  | nil => simp
  | cons x xs ih =>
    by_cases hx : p x
    · cases n with
      | zero => simp
      | succ n => simpa [takeWhile_cons_of_pos hx] using ih n
    · simp [hx]

/-- The table holds a queue of messages of the two kinds. -/
def Holds (a : Cipher) (t : List OutboxRow) (q : List OutboxMessage) : Prop :=
  ∃ f, Refines a t f ∧ f.contents = q ∧ ∀ m ∈ q, m.kind = .evidence ∨ m.kind = .completion

theorem forwardOutbox_delivers {w : List OutboxRow × List (OutboxMessage × Bool)} {q : List OutboxMessage}
    (h : Holds a w.1 q) {max : Int} (hma : 1 ≤ max) :
    Holds a (a.forwardOutbox s w max).1 (q.drop (min max.toNat (q.takeWhile (accepts s)).length)) ∧
    ∀ m, (m, true) ∈ (a.forwardOutbox s w max).2 ↔
      (m, true) ∈ w.2 ∨ m ∈ (q.takeWhile (accepts s)).take max.toNat := by
  obtain ⟨f, hf, rfl, hk⟩ := h
  obtain ⟨hr, hre⟩ := refines_forwardPending hf max (some fun _ => s.round)
  have hl : specForwardPending f max (some fun _ => s.round) =
      specForwardLoop (fun _ => s.round) max.toNat 0 f := if_neg (by omega)
  obtain ⟨hc, hs⟩ := forwardLoop_delivers (s := s) max.toNat 0 hf.inv hk
  rw [hl] at hr hre
  refine ⟨⟨_, hre, hc, fun m hm => hk m (mem_of_mem_drop hm)⟩, fun m => ?_⟩
  simp only [Cipher.forwardOutbox, mem_append]
  rw [hr]
  exact or_congr Iff.rfl (hs m)

theorem calls_deliver (maxima : List Int) (hma : ∀ m ∈ maxima, 1 ≤ m)
    {w : List OutboxRow × List (OutboxMessage × Bool)} {q : List OutboxMessage} (h : Holds a w.1 q) :
    ∃ k, maxima.length ≤ k ∧
    Holds a (run (a.forwardOutbox s) w maxima).1 (q.drop (min k (q.takeWhile (accepts s)).length)) ∧
    ∀ m, (m, true) ∈ (run (a.forwardOutbox s) w maxima).2 ↔
      (m, true) ∈ w.2 ∨ m ∈ (q.takeWhile (accepts s)).take k := by
  induction maxima generalizing w q with
  | nil => exact ⟨0, le_refl _, by simpa using h, by simp⟩
  | cons max maxima ih =>
    have hf := hma max mem_cons_self
    obtain ⟨hh, hs⟩ := forwardOutbox_delivers (s := s) h hf
    obtain ⟨k, hk, hh', hs'⟩ := ih (fun m hm => hma m (mem_cons_of_mem _ hm)) hh
    -- the accepted messages at the front of what the first call leaves
    have ht : (q.drop (min max.toNat (q.takeWhile (accepts s)).length)).takeWhile (accepts s) =
        (q.takeWhile (accepts s)).drop max.toNat := takeWhile_drop_min (accepts s) q max.toNat
    rw [ht] at hh' hs'
    refine ⟨max.toNat + k, by simp only [length_cons]; omega, ?_, fun m => ?_⟩
    · rw [drop_drop, length_drop] at hh'
      rw [run_cons]
      convert hh' using 2
      omega
    · rw [run_cons, hs' m, hs m, take_add, mem_append, or_assoc]

theorem specExec_valid (lim : OutboxLimits) (f : Fifo OutboxMessage) (op : Op)
    (h : message ∈ acceptedBy (op, (specExec lim f op).1)) :
    validateOutboxMessage message lim = .ok () := by
  cases op with
  | enqueue m nonce fault =>
    simp only [specExec, specEnqueue] at h
    cases hv : validateOutboxMessage m lim with
    | error e => simp [hv, acceptedBy] at h
    | ok valid =>
      have hm : message = m := by
        unfold acceptedBy at h
        split at h
        · rename_i he
          cases (Prod.mk.inj he).1
          exact mem_singleton.mp h
        · cases h
      rw [hm, hv]
  | _ => cases h

theorem valid_kind {lim : OutboxLimits} (h : validateOutboxMessage message lim = .ok ()) :
    message.kind = .evidence ∨ message.kind = .completion := by
  unfold validateOutboxMessage at h
  split at h
  · cases h
  split at h
  · cases h
  · rename_i hk
    simp only [Bool.and_eq_true, decide_eq_true_eq, not_and_or, not_not] at hk
    exact hk

theorem holds_run (a : Cipher) (lim : OutboxLimits) (ops : List Op) :
    Holds a (run (History.step (a.exec lim)) ⟨[], []⟩ ops).state
      (a.messages (run (History.step (a.exec lim)) ⟨[], []⟩ ops).state) := by
  have hsi := simulates_run (simulates_empty a lim) ops
  have hv : ∀ msg ∈ (run (History.step (specExec lim)) ⟨.empty, []⟩ ops).state.accepted,
      validateOutboxMessage msg lim = .ok () := by
    rw [hsi.accepted, hsi.calls]
    refine run_invariant (I := fun s : History (Fifo OutboxMessage) =>
      ∀ msg ∈ s.calls.flatMap acceptedBy, validateOutboxMessage msg lim = .ok ())
      (fun s op hs msg hm => ?_) (fun msg hm => by cases hm) ops
    simp only [History.step, flatMap_append, flatMap_singleton, mem_append] at hm
    exact hm.elim (hs msg) (specExec_valid lim s.state op)
  refine ⟨_, hsi.refines, (messages_eq hsi.refines).symm, fun m hm => ?_⟩
  rw [messages_eq hsi.refines] at hm
  obtain ⟨n, -, hn⟩ := mem_filterMap.mp hm
  exact valid_kind (hv m (mem_of_getElem? hn))

theorem mem_dropWhile_of_pairwise {α : Type} {p : α → Bool} {l : List α}
    (h : l.Pairwise fun x y => p x = false → p y = false) : ∀ x ∈ l.dropWhile p, p x = false := by
  induction l with
  | nil => simp
  | cons x xs ih =>
    obtain ⟨hx, hxs⟩ := pairwise_cons.mp h
    by_cases hp : p x
    · rw [dropWhile_cons_of_pos hp]
      exact ih hxs
    rw [dropWhile_cons_of_neg hp]
    intro y hy
    have hp' : p x = false := by simpa using hp
    rcases mem_cons.mp hy with rfl | hy
    · exact hp'
    · exact hx y hy hp'

theorem pairwise_of_dropWhile {α : Type} {p : α → Bool} {l : List α}
    (h : ∀ x ∈ l.dropWhile p, p x = false) : l.Pairwise fun x y => p x = false → p y = false := by
  induction l with
  | nil => exact .nil
  | cons x xs ih =>
    by_cases hp : p x
    · rw [dropWhile_cons_of_pos hp] at h
      exact pairwise_cons.mpr ⟨fun y _ hx => absurd hx (by simp [hp]), ih h⟩
    · rw [dropWhile_cons_of_neg hp] at h
      exact pairwise_cons.mpr ⟨fun y hy _ => h y (mem_cons_of_mem _ hy),
        ih fun y hy => h y (mem_cons_of_mem _ ((dropWhile_sublist p).mem hy))⟩

end

/-- **Result.** After any history of the outbox, with no new messages and no
failure but the server's rejections, at least as many calls of `ForwardOutbox`
as there are messages are made. Then every message the server does not reject
has been accepted by it and is not in the outbox any more, exactly when no
rejected message was in the outbox in front of one that is not rejected. -/
theorem delivery_iff (a : Cipher) (limits : OutboxLimits) (ops : List Op) (s : Receiver) (maxima : List Int)
    (hmax : ∀ m ∈ maxima, 1 ≤ m)
    (hcalls : (run (History.step (a.exec limits)) ⟨[], []⟩ ops).state.length ≤ maxima.length) :
    let t := (run (History.step (a.exec limits)) ⟨[], []⟩ ops).state
    let later := run (a.forwardOutbox s) (t, []) maxima
    (∀ m ∈ a.messages t, s.rejects m = false → (m, true) ∈ later.2 ∧ m ∉ a.messages later.1) ↔
      (a.messages t).Pairwise fun m m' => s.rejects m → s.rejects m' := by
  intro t later
  have hh : Holds a t (a.messages t) := holds_run a limits ops
  obtain ⟨k, hk, hl, hs⟩ := calls_deliver (s := s) maxima hmax (w := (t, [])) hh
  have hl1 : (a.messages t).length = t.length := by
    obtain ⟨f, hf, hq, -⟩ := hh
    rw [← hq, hf.rows.length_eq]
  have hp : ((a.messages t).takeWhile (accepts s)).length ≤ k :=
    ((takeWhile_sublist _).length_le.trans (hl1.le.trans hcalls)).trans hk
  have hle : a.messages later.1 = (a.messages t).dropWhile (accepts s) := by
    obtain ⟨f, hf, hq, -⟩ := hl
    rw [messages_eq hf, hq, Nat.min_eq_right hp]
    nth_rewrite 2 [← takeWhile_append_dropWhile (p := accepts s) (l := a.messages t)]
    exact drop_left
  have hde : ∀ m, (m, true) ∈ later.2 ↔ m ∈ (a.messages t).takeWhile (accepts s) := by
    intro m
    rw [hs m, take_of_length_le hp]
    simp
  have hsa : ((a.messages t).Pairwise fun m m' => s.rejects m → s.rejects m') ↔
      (a.messages t).Pairwise fun m m' => accepts s m = false → accepts s m' = false := by
    simp [accepts]
  rw [hsa, hle]
  constructor
  · intro h
    refine pairwise_of_dropWhile fun m hm => ?_
    by_contra hacc
    have hme : m ∈ a.messages t := (dropWhile_sublist _).mem hm
    exact (h m hme (by simpa [accepts] using hacc)).2 hm
  · intro h m hm hr
    have hn : m ∉ (a.messages t).dropWhile (accepts s) := fun hd => by
      simpa [accepts, hr] using mem_dropWhile_of_pairwise h m hd
    refine ⟨(hde m).mpr ?_, hn⟩
    rw [← takeWhile_append_dropWhile (p := accepts s) (l := a.messages t)] at hm
    exact (mem_append.mp hm).resolve_right hn

/-! ## A rejected message in front and behind -/

/-- A cipher that hides nothing. -/
def smallCipher : Cipher where
  sealBytes _ plaintext _ := plaintext
  openBytes _ ciphertext _ := some ciphertext
  open_seal _ _ _ := rfl
  marshal _ := []

def smallMessage (id : String) : OutboxMessage where
  id := id
  kind := .evidence
  payload := [1]
  createdAt := Small.clock 0

/-- A server that answers one identifier with 409. -/
def conflictOn (id : String) : Receiver where
  status message := if message.id = id then 409 else 202
  answers message := by
    by_cases h : message.id = id <;> simp [h]

def twoMessages : List Op :=
  [.enqueue (smallMessage "a") [] none, .enqueue (smallMessage "b") [] none]

/-- The state after `twoMessages`, with the limits 10 and 100. -/
def smallOutbox : List OutboxRow :=
  (run (History.step (smallCipher.exec ⟨10, 100⟩)) ⟨[], []⟩ twoMessages).state

theorem delivery_last_rejected :
    (smallMessage "a", true) ∈ (run (smallCipher.forwardOutbox (conflictOn "b")) (smallOutbox, []) [1, 1]).2 ∧
    smallMessage "a" ∉ smallCipher.messages
      (run (smallCipher.forwardOutbox (conflictOn "b")) (smallOutbox, []) [1, 1]).1 :=
  (delivery_iff smallCipher ⟨10, 100⟩ twoMessages (conflictOn "b") [1, 1] (by decide) (by decide +kernel)).mpr
    (by decide +kernel) (smallMessage "a") (by decide +kernel) (by decide +kernel)

/-- The server would take "b", but every call ends at "a". -/
theorem delivery_blocked :
    smallMessage "b" ∈ smallCipher.messages smallOutbox ∧ (conflictOn "a").rejects (smallMessage "b") = false ∧
    smallMessage "b" ∈ smallCipher.messages
      (run (smallCipher.forwardOutbox (conflictOn "a")) (smallOutbox, []) [100, 100, 100]).1 ∧
    (run (smallCipher.forwardOutbox (conflictOn "a")) (smallOutbox, []) [100, 100, 100]).2 =
      [(smallMessage "a", false), (smallMessage "a", false), (smallMessage "a", false)] := by
  decide +kernel

end Mossward.L4.Outbox
