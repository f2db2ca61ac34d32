import Mathlib.Data.List.Sort
import Mossward.Model
import Mossward.L1Encoding.AddrRange
import Mossward.L1Encoding.Names

/-!
# The scope of a scan

`Engine.Validate` (`internal/scanner/scanner.go`) turns the entries of a request
into targets: prefixes and `start-end` ranges are walked address by address, names
are resolved. An address outside the allowed networks or one too many ends the
validation. Addresses of names and the ends of ranges are unmapped; addresses of
a prefix are not, so an IPv4-mapped prefix adds an address a second time.

Results: `prefixLoop_eq`, `rangeLoop_ok`, `scope_of_validate`, `scope_exact_iff`,
`mapped_target_twice`.
-/
namespace Mossward.L4.ScanScope

open Model L1.NetAddr L1.AddrText L1.AddrRange L1.Names List

/-! ## Model -/

/-- What `Validate` reads of the engine and its configuration. A name that does
not resolve gives `none`. -/
structure Engine where
  nets : List IPNet
  allowedPorts : List (Int × Bool)
  maxTargets : Int
  lookupIP : String → Option (List Bytes)

structure CreateScanRequest where
  targets : List String
  ports : List Int

/-- The errors, with what their texts name. -/
inductive ScopeError
  | count (limit : Int)
  | port (port : Int)
  | blank
  | cidr (name : String)
  | noHosts (name : String)
  | range (name : String)
  | unresolved (name : String)
  | invalidAddress (name : String)
  | outside (name address : String)
  | limit (limit : Int)
deriving DecidableEq, Repr

abbrev Result := Except ScopeError (List Target)

/-- Mirrors `internal/scanner/scanner.go:627-634`. -/
def Engine.allowed (e : Engine) (a : Addr) : Bool := e.nets.any fun n => n.contains a

/-- `seen` holds the addresses of the targets. Mirrors
`internal/scanner/scanner.go:246-260`. -/
def addTarget (e : Engine) (name : String) (a : Addr) (targets : List Target) : Result :=
  if !e.allowed a then .error (.outside name (text a))
  else if text a ∈ targets.map (·.address) then .ok targets
  else if e.maxTargets ≤ targets.length then .error (.limit e.maxTargets)
  else .ok (targets ++ [⟨name, text a, []⟩])

/-- No walk takes more steps than there are addresses. -/
def addressCount : Nat := 2 ^ 128

/-- Neither edge, if edges are skipped. -/
def keeps (p : Prefix) (skipEdges : Bool) (a : Addr) : Bool :=
  !skipEdges || (a ≠ p.addr && (next a).any p.contains)

/-- The loop of `addPrefixTargets`. -/
def prefixLoop (e : Engine) (name : String) (p : Prefix) (skipEdges : Bool) : Nat → Addr → List Target → Result
  | 0, _, targets => .ok targets
  | fuel + 1, a, targets =>
    if p.contains a then
      match if keeps p skipEdges a then addTarget e name a targets else .ok targets with
      | .error err => .error err
      | .ok targets =>
        match next a with
        | none => .ok targets
        | some a => prefixLoop e name p skipEdges fuel a targets
    else .ok targets

def is4 : Addr → Bool
  | .v4 _ => true
  | .v6 _ _ => false

/-- Mirrors `internal/scanner/scanner.go:208-227`. -/
def addPrefixTargets (e : Engine) (name : String) (p : Prefix) (targets : List Target) : Result :=
  let p := masked p
  let skipEdges := is4 p.addr && p.bits ≤ 30
  match prefixLoop e name p skipEdges addressCount p.addr targets with
  | .error err => .error err
  | .ok targets => if targets = [] then .error (.noHosts name) else .ok targets

/-- The loop of `addRangeTargets`. After the last address there is none, and no
network contains that. -/
def rangeLoop (e : Engine) (name : String) (stop : Addr) : Nat → Addr → List Target → Result
  | 0, _, targets => .ok targets
  | fuel + 1, a, targets =>
    match addTarget e name a targets with
    | .error err => .error err
    | .ok targets =>
      if a = stop then .ok targets
      else
        match next a with
        | none => .error (.outside name "invalid IP")
        | some a => rangeLoop e name stop fuel a targets

/-- Mirrors `internal/scanner/scanner.go:229-244`. -/
def addRangeTargets (e : Engine) (name : String) (start stop : Addr) (targets : List Target) : Result :=
  let start := unmap start
  let stop := unmap stop
  if bitLen start ≠ bitLen stop ∨ after start stop then .error (.range name)
  else rangeLoop e name stop addressCount start targets

/-- Mirrors `internal/scanner/scanner.go:262-273`. -/
def parseAddressRange (value : String) : Option (Addr × Addr) :=
  let s := value.toList
  if '-' ∈ s then
    match parseAddr (String.ofList (trimSpace (s.takeWhile (· ≠ '-')))),
      parseAddr (String.ofList (trimSpace ((s.dropWhile (· ≠ '-')).drop 1))) with
    | some start, some stop => some (start, stop)
    | _, _ => none
  else none

/-- The loop over the addresses of a name. -/
def addResolved (e : Engine) (name : String) : List Bytes → List Target → Result
  | [], targets => .ok targets
  | ip :: ips, targets =>
    match addrFromSlice ip with
    | none => .error (.invalidAddress name)
    | some a =>
      match addTarget e name (unmap a) targets with
      | .error err => .error err
      | .ok targets => addResolved e name ips targets

def trimmed (entry : String) : String := String.ofList (trimSpace entry.toList)

/-- One round of the loop over the request's targets. -/
def addEntry (e : Engine) (entry : String) (targets : List Target) : Result :=
  let name := trimmed entry
  if name = "" then .error .blank
  else if '/' ∈ name.toList then
    match parsePrefix name with
    | none => .error (.cidr name)
    | some p => addPrefixTargets e name p targets
  else
    match parseAddressRange name with
    | some (start, stop) => addRangeTargets e name start stop targets
    | none =>
      match e.lookupIP name with
      | none => .error (.unresolved name)
      | some ips => if ips = [] then .error (.unresolved name) else addResolved e name ips targets

def addEntries (e : Engine) : List String → List Target → Result
  | [], targets => .ok targets
  | entry :: entries, targets =>
    match addEntry e entry targets with
    | .error err => .error err
    | .ok targets => addEntries e entries targets

/-- A port is added unless the last one is the same. -/
def keepPort (result : List Int) (port : Int) : List Int :=
  if result.getLast? = some port then result else result ++ [port]

/-- Mirrors `internal/scanner/scanner.go:636-644`. -/
def deduplicatePorts (ports : List Int) : List Int := ports.foldl keepPort []

/-- `cfg.AllowedPorts[port]`. -/
def Engine.portAllowed (e : Engine) (port : Int) : Bool := (e.allowedPorts.lookup port).getD false

/-- The ports of a request, or all ports of the configuration. -/
def Engine.ports (e : Engine) (request : CreateScanRequest) : List Int :=
  let ports := if request.ports = [] then e.allowedPorts.map (·.1) else request.ports
  deduplicatePorts (ports.insertionSort (· ≤ ·))

/-- Mirrors `internal/scanner/scanner.go:150-206`. -/
def Engine.validate (e : Engine) (request : CreateScanRequest) : Except ScopeError (List Target × List Int) :=
  if request.targets = [] ∨ e.maxTargets < request.targets.length then .error (.count e.maxTargets)
  else
    match (e.ports request).find? fun port => !e.portAllowed port with
    | some port => .error (.port port)
    | none =>
      match addEntries e request.targets [] with
      | .error err => .error err
      | .ok targets => .ok (targets, e.ports request)

/-- An engine for the private IPv4 networks that resolves no name but the text of
10.0.0.1. -/
def sampleEngine : Engine where
  nets := [.v4 0x0a000000 0xff000000]
  allowedPorts := [(443, true), (22, true)]
  maxTargets := 4
  lookupIP name := if name = "10.0.0.1" then some [[10, 0, 0, 1]] else none

/-- The address of a mapped prefix is not unmapped: the same host is a target
twice, under two spellings. -/
theorem mapped_target_twice : sampleEngine.validate ⟨["10.0.0.1", "::ffff:10.0.0.1/128"], []⟩ =
      .ok ([⟨"10.0.0.1", "10.0.0.1", []⟩, ⟨"::ffff:10.0.0.1/128", "::ffff:10.0.0.1", []⟩], [22, 443]) ∧
    (parseAddr "10.0.0.1").map unmap = (parseAddr "::ffff:10.0.0.1").map unmap := by
  constructor
  · decide +kernel
  · decide +kernel

/-! ## Adding addresses -/

variable {e : Engine} {name : String}

/-- Adding addresses one after the other. -/
def addAll (e : Engine) (name : String) : List Addr → List Target → Result
  | [], targets => .ok targets
  | a :: as, targets =>
    match addTarget e name a targets with
    | .error err => .error err
    | .ok targets => addAll e name as targets

variable {a : Addr} {targets targets' : List Target}

theorem addTarget_ok (h : addTarget e name a targets = .ok targets') :
    e.allowed a = true ∧ ((text a ∈ targets.map (·.address) ∧ targets' = targets) ∨
      (text a ∉ targets.map (·.address) ∧ (targets.length : Int) < e.maxTargets ∧
        targets' = targets ++ [⟨name, text a, []⟩])) := by
  unfold addTarget at h
  split at h
  · cases h
  split at h
  · next ha hs =>
    cases h
    exact ⟨by simpa using ha, Or.inl ⟨hs, rfl⟩⟩
  split at h
  · cases h
  · next ha hn hf =>
    cases h
    exact ⟨by simpa using ha, Or.inr ⟨hn, by omega, rfl⟩⟩

/-- Targets are the texts of allowed addresses, each once, within the limit. -/
structure Scope (e : Engine) (targets : List Target) : Prop where
  allowed : ∀ t ∈ targets, ∃ a, t.address = text a ∧ e.allowed a = true
  distinct : (targets.map (·.address)).Nodup
  limit : (targets.length : Int) ≤ e.maxTargets

theorem scope_addTarget (hs : Scope e targets) (h : addTarget e name a targets = .ok targets') :
    Scope e targets' ∧ ∀ x, x ∈ targets'.map (·.address) ↔ x ∈ targets.map (·.address) ∨ x = text a := by
  obtain ⟨ha, ⟨hse, rfl⟩ | ⟨hn, hf, rfl⟩⟩ := addTarget_ok h
  · refine ⟨hs, ?_⟩
    intro x
    constructor
    · exact Or.inl
    · intro hx
      rcases hx with hx | rfl
      · exact hx
      · exact hse
  constructor
  · constructor
    · intro t ht
      rcases mem_append.mp ht with ht | ht
      · exact hs.allowed t ht
      · rw [mem_singleton.mp ht]
        exact ⟨a, rfl, ha⟩
    · rw [map_append, nodup_append]
      refine ⟨hs.distinct, nodup_singleton _, ?_⟩
      intro x hx y hy hxy
      rw [hxy, mem_singleton.mp hy] at hx
      exact hn hx
    · rw [length_append, length_singleton]
      omega
  · intro x
    rw [map_append, map_singleton, mem_append, mem_singleton]

theorem scope_addAll {as : List Addr} (hs : Scope e targets) (h : addAll e name as targets = .ok targets') :
    Scope e targets' ∧ ∀ x, x ∈ targets'.map (·.address) ↔ x ∈ targets.map (·.address) ∨ ∃ a ∈ as, x = text a := by
  induction as generalizing targets with
  | nil =>
    cases h
    exact ⟨hs, fun x => by simp⟩
  | cons a as ih =>
    rw [addAll] at h
    split at h
    · cases h
    next middle had =>
    obtain ⟨hm, hme⟩ := scope_addTarget hs had
    obtain ⟨ha, hm'⟩ := ih hm h
    refine ⟨ha, ?_⟩
    intro x
    rw [hm', hme, or_assoc, exists_mem_cons_iff]

/-! ## Walks -/

/-- An address and those after it. -/
def walk : Addr → Nat → List Addr
  | _, 0 => []
  | a, n + 1 => a :: walk (withValue a (value a + 1)) n

theorem mem_walk {b : Addr} {n : Nat} (h : value a + n ≤ 2 ^ bitLen a) :
    b ∈ walk a n ↔ Kin b a ∧ value a ≤ value b ∧ value b < value a + n := by
  induction n generalizing a with
  | zero =>
    constructor
    · intro hb
      cases hb
    · omega
  | succ n ih =>
    rw [walk, mem_cons]
    by_cases hn : n = 0
    · -- the address may be the last of its family
      subst hn
      constructor
      · intro hb
        rcases hb with rfl | hb
        · exact ⟨Kin.refl b, le_rfl, by omega⟩
        · cases hb
      · intro ⟨hk, hl, hh⟩
        exact Or.inl (hk.eq_of_value (by omega))
    have hv : value (withValue a (value a + 1)) = value a + 1 := value_withValue (by omega)
    have hr := @ih (withValue a (value a + 1)) (by rw [bitLen_withValue]; omega)
    rw [hr]
    constructor
    · intro hb
      rcases hb with rfl | ⟨hk, hl, hh⟩
      · exact ⟨Kin.refl b, le_rfl, by omega⟩
      · exact ⟨hk.trans (kin_withValue a _), by omega, by omega⟩
    · intro ⟨hk, hl, hh⟩
      by_cases hb : value b = value a
      · exact Or.inl (hk.eq_of_value hb)
      · exact Or.inr ⟨hk.trans (kin_withValue a _).symm, by omega, by omega⟩

variable {p : Prefix}

theorem prefixLoop_eq (hp : WellFormed p) (skip : Bool) {n fuel : Nat}
    (hki : Kin a p.addr) (hlo : low p ≤ value a) (hn : value a + n = low p + size p) (hf : n ≤ fuel)
    (tgts : List Target) :
    prefixLoop e name (masked p) skip fuel a tgts =
      addAll e name ((walk a n).filter (keeps (masked p) skip)) tgts := by
  induction n generalizing a fuel tgts with
  | zero =>
    have ho : ¬ (masked p).contains a = true := by
      rw [masked_contains_iff hp]
      omega
    cases fuel with
    | zero => rfl
    | succ fuel =>
      rw [prefixLoop, if_neg ho]
      rfl
  | succ n ih =>
    obtain ⟨fuel, rfl⟩ : ∃ f, fuel = f + 1 := Nat.exists_eq_succ_of_ne_zero (by omega)
    have hi : (masked p).contains a = true := (masked_contains_iff hp a).mpr ⟨hki, hlo, by omega⟩
    have hb := low_add_size_le p
    -- what remains after this address
    have hr : ∀ tgts : List Target, (match next a with
          | none => Except.ok tgts
          | some a => prefixLoop e name (masked p) skip fuel a tgts) =
          addAll e name ((walk (withValue a (value a + 1)) n).filter (keeps (masked p) skip)) tgts := by
      intro tgts
      rw [next_eq, hki.bitLen_eq]
      by_cases hl : value a + 1 < 2 ^ bitLen p.addr
      · have hv : value (withValue a (value a + 1)) = value a + 1 :=
          value_withValue (by rw [hki.bitLen_eq]; exact hl)
        rw [if_pos hl]
        exact ih ((kin_withValue a _).trans hki) (by omega) (by omega) (by omega) tgts
      · have hz : n = 0 := by omega
        rw [if_neg hl, hz]
        rfl
    rw [prefixLoop, if_pos hi, walk, filter_cons]
    by_cases hk : keeps (masked p) skip a = true
    · rw [if_pos hk, if_pos hk, addAll]
      cases addTarget e name a tgts with
      | error err => rfl
      | ok tgts => exact hr tgts
    · rw [if_neg hk, if_neg hk]
      exact hr tgts

/-- A walk from an address that ends without an error has come to the stop: it has
the same family and zone and is not before the address. -/
theorem rangeLoop_ok {stop : Addr} {fuel : Nat} (hf : 2 ^ bitLen a - value a ≤ fuel)
    (h : rangeLoop e name stop fuel a targets = .ok targets') :
    Kin a stop ∧ value a ≤ value stop ∧
      addAll e name (walk a (value stop - value a + 1)) targets = .ok targets' := by
  have hlt := value_lt a
  induction fuel generalizing a targets with
  | zero => omega
  | succ fuel ih =>
    rw [rangeLoop] at h
    split at h
    · cases h
    next middle ha =>
    split at h
    · next hs =>
      subst hs
      cases h
      refine ⟨Kin.refl a, le_rfl, ?_⟩
      rw [Nat.sub_self, walk, addAll, ha]
      rfl
    rw [next_eq] at h
    split at h
    · cases h
    next b hn =>
    split at hn
    · next hl =>
      cases hn
      have hv : value (withValue a (value a + 1)) = value a + 1 := value_withValue hl
      obtain ⟨hk, hle, hal⟩ := ih (by rw [bitLen_withValue]; omega) h (value_lt _)
      rw [hv] at hle hal
      refine ⟨(kin_withValue a _).symm.trans hk, by omega, ?_⟩
      have hc : value stop - value a + 1 = value stop - (value a + 1) + 1 + 1 := by omega
      rw [hc, walk, addAll, ha]
      exact hal
    · cases hn

/-! ## Expansions -/

def network (p : Prefix) : Addr := withValue p.addr (low p)

def broadcast (p : Prefix) : Addr := withValue p.addr (low p + size p - 1)

/-- What a prefix contributes: its addresses, without network and broadcast for an
IPv4 prefix of length at most 30. -/
def InPrefix (p : Prefix) (a : Addr) : Prop :=
  (Kin a p.addr ∧ low p ≤ value a ∧ value a < low p + size p) ∧
    (is4 p.addr = true ∧ p.bits ≤ 30 → a ≠ network p ∧ a ≠ broadcast p)

/-- What a range contributes: the addresses of its family and zone from its start
to its stop. -/
def InRange (start stop a : Addr) : Prop :=
  Kin a start ∧ Kin a stop ∧ value start ≤ value a ∧ value a ≤ value stop

/-- What an entry of a request contributes. -/
@[irreducible] def Expands (lookupIP : String → Option (List Bytes)) (entry : String) (a : Addr) : Prop :=
  let name := trimmed entry
  if '/' ∈ name.toList then ∃ p, parsePrefix name = some p ∧ InPrefix p a
  else
    match parseAddressRange name with
    | some (start, stop) => InRange (unmap start) (unmap stop) a
    | none => ∃ ips, lookupIP name = some ips ∧ ∃ ip ∈ ips, (addrFromSlice ip).map unmap = some a

theorem is4_withValue (a : Addr) (n : Nat) : is4 (withValue a n) = is4 a := by
  cases a with
  | v4 bits => rfl
  | v6 bits zone => rfl

/-- The next address is in the prefix unless the address is its last. -/
theorem next_contains_iff (hp : WellFormed p) (hk : Kin a p.addr) (hlo : low p ≤ value a) :
    (next a).any (masked p).contains = true ↔ value a + 1 < low p + size p := by
  have hb := low_add_size_le p
  rw [next_eq, hk.bitLen_eq]
  by_cases hl : value a + 1 < 2 ^ bitLen p.addr
  · have hv : value (withValue a (value a + 1)) = value a + 1 :=
      value_withValue (by rw [hk.bitLen_eq]; exact hl)
    rw [if_pos hl, Option.any_some, masked_contains_iff hp, hv]
    constructor
    · intro h
      exact h.2.2
    · intro h
      exact ⟨(kin_withValue a _).trans hk, by omega, h⟩
  · rw [if_neg hl]
    constructor
    · intro h
      cases h
    · omega

theorem keeps_iff (hp : WellFormed p) (hk : Kin a p.addr) (hl : low p ≤ value a)
    (hh : value a < low p + size p) :
    keeps (masked p) (is4 (masked p).addr && (masked p).bits ≤ 30) a = true ↔
      (is4 p.addr = true ∧ p.bits ≤ 30 → a ≠ network p ∧ a ≠ broadcast p) := by
  have hbo := low_add_size_le p
  have hb : a ≠ broadcast p ↔ value a + 1 < low p + size p := by
    have hv : value (broadcast p) = low p + size p - 1 := value_withValue (by omega)
    constructor
    · intro hne
      by_contra hno
      have hsa : value a = value (broadcast p) := by omega
      exact hne ((hk.trans (kin_withValue p.addr _).symm).eq_of_value hsa)
    · intro hlt he
      rw [he] at hlt
      omega
  have hn := next_contains_iff hp hk hl
  unfold keeps
  rw [masked_addr, is4_withValue, masked_bits]
  by_cases hs : is4 p.addr = true ∧ p.bits ≤ 30
  · have hed : (is4 p.addr && decide (p.bits ≤ 30)) = true := by simpa using hs
    rw [hed, Bool.not_true, Bool.false_or, Bool.and_eq_true, decide_eq_true_eq, hn, hb]
    exact ⟨fun h _ => h, fun h => h hs⟩
  have hed : (is4 p.addr && decide (p.bits ≤ 30)) = false := by
    simpa using hs
  rw [hed]
  exact ⟨fun _ h => absurd h hs, fun _ => rfl⟩

theorem addPrefixTargets_ok (hp : WellFormed p) (h : addPrefixTargets e name p targets = .ok targets') :
    ∃ as, (∀ a, a ∈ as ↔ InPrefix p a) ∧ addAll e name as targets = .ok targets' := by
  have hb := low_add_size_le p
  have hpo := size_pos p
  have hv : value (withValue p.addr (low p)) = low p := value_withValue (by omega)
  have hs : size p ≤ addressCount := by
    have hle : size p ≤ 2 ^ bitLen p.addr := by omega
    exact hle.trans (Nat.pow_le_pow_right (by omega) (bitLen_le p.addr))
  have hlo := fun skip => @prefixLoop_eq e name _ p hp skip _ _ (kin_withValue p.addr (low p)) (by omega) (by omega)
    hs targets
  unfold addPrefixTargets at h
  dsimp only at h
  split at h
  · cases h
  next added ha =>
  split at h
  · cases h
  cases h
  rw [masked_addr, hlo, ← masked_addr] at ha
  refine ⟨_, ?_, ha⟩
  intro a
  have hm := @mem_walk (withValue p.addr (low p)) a (size p) (by rw [hv, bitLen_withValue]; exact hb)
  rw [hv] at hm
  rw [mem_filter, masked_addr, hm]
  constructor
  · intro ⟨⟨hki, hl, hh⟩, hk⟩
    have hk' := hki.trans (kin_withValue p.addr _)
    rw [← masked_addr] at hk
    exact ⟨⟨hk', hl, hh⟩, (keeps_iff hp hk' hl hh).mp hk⟩
  · intro ⟨⟨hki, hl, hh⟩, he⟩
    have hk := (keeps_iff hp hki hl hh).mpr he
    rw [masked_addr] at hk
    exact ⟨⟨hki.trans (kin_withValue p.addr _).symm, hl, hh⟩, hk⟩

theorem addRangeTargets_ok {start stop : Addr}
    (h : addRangeTargets e name start stop targets = .ok targets') :
    ∃ as, (∀ a, a ∈ as ↔ InRange (unmap start) (unmap stop) a) ∧ addAll e name as targets = .ok targets' := by
  unfold addRangeTargets at h
  dsimp only at h
  split at h
  · cases h
  have hf : 2 ^ bitLen (unmap start) - value (unmap start) ≤ addressCount :=
    (Nat.sub_le _ _).trans (Nat.pow_le_pow_right (by omega) (bitLen_le _))
  obtain ⟨hk, hle, hal⟩ := rangeLoop_ok hf h
  have hs := value_lt (unmap stop)
  rw [← hk.bitLen_eq] at hs
  refine ⟨_, ?_, hal⟩
  intro a
  rw [mem_walk (by omega)]
  constructor
  · intro ⟨ha, hl, hh⟩
    exact ⟨ha, ha.trans hk, hl, by omega⟩
  · intro ⟨ha, _, hl, hh⟩
    exact ⟨ha, hl, by omega⟩

theorem addResolved_ok {ips : List Bytes} (h : addResolved e name ips targets = .ok targets') :
    addAll e name (ips.filterMap fun ip => (addrFromSlice ip).map unmap) targets = .ok targets' := by
  induction ips generalizing targets with
  | nil => exact h
  | cons ip ips ih =>
    rw [addResolved] at h
    split at h
    · cases h
    next a ha =>
    split at h
    · cases h
    · next middle had =>
      rw [filterMap_cons, ha, Option.map_some, addAll, had]
      exact ih h

theorem addEntry_ok {entry : String} (h : addEntry e entry targets = .ok targets') :
    ∃ as, (∀ a, a ∈ as ↔ Expands e.lookupIP entry a) ∧ addAll e (trimmed entry) as targets = .ok targets' := by
  unfold addEntry at h
  unfold Expands
  dsimp only at h ⊢
  split at h
  · cases h
  by_cases hs : '/' ∈ (trimmed entry).toList
  · rw [if_pos hs] at h
    simp only [if_pos hs]
    split at h
    · cases h
    next p hp =>
    obtain ⟨as, hm, hal⟩ := addPrefixTargets_ok (parsePrefix_wellFormed hp) h
    refine ⟨as, ?_, hal⟩
    intro a
    rw [hm]
    constructor
    · intro ha
      exact ⟨p, hp, ha⟩
    · intro ⟨q, hq, ha⟩
      rw [hp] at hq
      rw [Option.some.inj hq]
      exact ha
  · rw [if_neg hs] at h
    simp only [if_neg hs]
    split at h
    · next start stop hr => exact addRangeTargets_ok h
    split at h
    · cases h
    next ips hi =>
    split at h
    · cases h
    refine ⟨_, ?_, addResolved_ok h⟩
    intro a
    rw [mem_filterMap]
    constructor
    · intro ha
      exact ⟨ips, hi, ha⟩
    · intro ⟨ips', hi', ha⟩
      rw [hi] at hi'
      rw [Option.some.inj hi']
      exact ha

theorem scope_addEntries {es : List String} (hs : Scope e targets)
    (h : addEntries e es targets = .ok targets') :
    Scope e targets' ∧ ∀ x, x ∈ targets'.map (·.address) ↔
      x ∈ targets.map (·.address) ∨ ∃ entry ∈ es, ∃ a, Expands e.lookupIP entry a ∧ x = text a := by
  induction es generalizing targets with
  | nil =>
    cases h
    exact ⟨hs, fun x => by simp⟩
  | cons entry es ih =>
    rw [addEntries] at h
    split at h
    · cases h
    next middle he =>
    obtain ⟨as, hme, hal⟩ := addEntry_ok he
    obtain ⟨hm, ha⟩ := scope_addAll hs hal
    obtain ⟨haf, ha'⟩ := ih hm h
    refine ⟨haf, ?_⟩
    intro x
    rw [ha', ha, or_assoc, exists_mem_cons_iff]
    simp only [hme]

/-! ## Ports -/

variable {result : List Int}

theorem mem_keepPort {port p : Int} : p ∈ keepPort result port ↔ p ∈ result ∨ p = port := by
  unfold keepPort
  split
  · next hs =>
    have hm := mem_of_getLast? hs
    constructor
    · exact Or.inl
    · intro hp
      rcases hp with hp | rfl
      · exact hp
      · exact hm
  · rw [mem_append, mem_singleton]

theorem keepPort_increasing {port : Int} (hr : result.Pairwise (· < ·))
    (hpo : ∀ p ∈ result, p ≤ port) : (keepPort result port).Pairwise (· < ·) := by
  unfold keepPort
  split
  · exact hr
  next hl =>
  rw [pairwise_append]
  refine ⟨hr, pairwise_singleton _ _, ?_⟩
  intro p hp q hq
  rw [mem_singleton.mp hq]
  have hn : p ≠ port := by
    intro he
    rcases eq_nil_or_concat' result with rfl | ⟨init, last, rfl⟩
    · cases hp
    obtain ⟨-, -, hb⟩ := pairwise_append.mp hr
    have hle := hpo last (by simp)
    rcases mem_append.mp hp with hp | hp
    · have hlt := hb p hp last mem_cons_self
      omega
    · rw [mem_singleton.mp hp] at he
      exact hl (by simp [he])
  have hle := hpo p hp
  omega

theorem foldl_keepPort {ports : List Int} (hpo : ports.Pairwise (· ≤ ·)) (hr : result.Pairwise (· < ·))
    (hl : ∀ p ∈ result, ∀ q ∈ ports, p ≤ q) :
    (ports.foldl keepPort result).Pairwise (· < ·) ∧
      ∀ p, p ∈ ports.foldl keepPort result ↔ p ∈ result ∨ p ∈ ports := by
  induction ports generalizing result with
  | nil => exact ⟨hr, fun p => by simp⟩
  | cons port ports ih =>
    obtain ⟨hf, hre⟩ := pairwise_cons.mp hpo
    have hn := keepPort_increasing hr fun p hp => hl p hp port mem_cons_self
    obtain ⟨hfi, hm⟩ := ih hre hn (by
      intro p hp q hq
      rcases mem_keepPort.mp hp with hp | rfl
      · exact hl p hp q (mem_cons_of_mem _ hq)
      · exact hf q hq)
    refine ⟨hfi, ?_⟩
    intro p
    rw [foldl_cons, hm, mem_keepPort, or_assoc, mem_cons]

theorem ports_increasing (e : Engine) (req : CreateScanRequest) : (e.ports req).Pairwise (· < ·) :=
  (foldl_keepPort (pairwise_insertionSort _ _) List.Pairwise.nil (by simp)).1

/-! ## Validation -/

/-- **Scope.** What `Validate` returns, whatever the request: the targets are the
texts of what the entries expand to, each address once, all of them allowed and no
more than the limit; the ports are increasing and allowed. -/
theorem scope_of_validate {req : CreateScanRequest} {ports : List Int}
    (h : e.validate req = .ok (targets, ports)) :
    (∀ x, x ∈ targets.map (·.address) ↔ ∃ entry ∈ req.targets, ∃ a, Expands e.lookupIP entry a ∧ x = text a) ∧
      Scope e targets ∧ ports.Pairwise (· < ·) ∧ ∀ p ∈ ports, e.portAllowed p = true := by
  unfold Engine.validate at h
  split at h
  · cases h
  split at h
  · cases h
  next hpo =>
  split at h
  · cases h
  next added ha =>
  cases h
  have he : Scope e [] := by
    have hl : (0 : Int) ≤ e.maxTargets := by
      omega
    exact ⟨by simp, nodup_nil, hl⟩
  obtain ⟨hs, hm⟩ := scope_addEntries he ha
  refine ⟨?_, hs, ports_increasing e req, ?_⟩
  · intro x
    rw [hm]
    simp
  · intro p hp
    simpa using find?_eq_none.mp hpo p hp

/-- **Exact scope.** The targets are exactly the union of the expansions, each lies
in an allowed network, they are within the limit, and the ports are increasing and
allowed. They are distinct as IP addresses after unmapping exactly when the
entries do not expand to two addresses, one of them IPv4-mapped, that unmapping
makes one. -/
theorem scope_exact_iff {e : Engine} {request : CreateScanRequest} {targets : List Target} {ports : List Int}
    (h : e.validate request = .ok (targets, ports)) :
    ((∀ x, x ∈ targets.map (·.address) ↔ ∃ entry ∈ request.targets, ∃ a, Expands e.lookupIP entry a ∧ x = text a) ∧
      (∀ t ∈ targets, ∃ a, parseAddr t.address = some a ∧ ∃ n ∈ e.nets, n.contains a = true) ∧
      (targets.length : Int) ≤ e.maxTargets ∧ ports.Pairwise (· < ·) ∧ ∀ p ∈ ports, e.portAllowed p = true) ∧
    ((targets.map fun t => (parseAddr t.address).map unmap).Nodup ↔
      ∀ entry ∈ request.targets, ∀ entry' ∈ request.targets, ∀ a b, Expands e.lookupIP entry a →
        Expands e.lookupIP entry' b → unmap a = unmap b → a = b) := by
  obtain ⟨hm, hs, hi, hal⟩ := scope_of_validate h
  have hparse : (targets.map fun t => (parseAddr t.address).map unmap) =
      (targets.map (·.address)).map fun x => (parseAddr x).map unmap := by
    rw [map_map]
    rfl
  refine ⟨⟨hm, ?_, hs.limit, hi, hal⟩, ?_⟩
  · intro t ht
    obtain ⟨a, ha, hne⟩ := hs.allowed t ht
    exact ⟨a, by rw [ha, parseAddr_text], any_eq_true.mp hne⟩
  rw [hparse]
  constructor
  · intro hn entry hen entry' hen' a b ha hb hab
    have heq := inj_on_of_nodup_map hn ((hm _).mpr ⟨entry, hen, a, ha, rfl⟩) ((hm _).mpr ⟨entry', hen', b, hb, rfl⟩)
      (by rw [parseAddr_text, parseAddr_text, Option.map_some, Option.map_some, hab])
    have hp := congrArg parseAddr heq
    rw [parseAddr_text, parseAddr_text] at hp
    exact Option.some.inj hp
  · intro hone
    refine List.Nodup.map_on ?_ hs.distinct
    intro x hx y hy he
    obtain ⟨entry, hen, a, ha, rfl⟩ := (hm x).mp hx
    obtain ⟨entry', hen', b, hb, rfl⟩ := (hm y).mp hy
    rw [parseAddr_text, parseAddr_text, Option.map_some, Option.map_some] at he
    rw [hone entry hen entry' hen' a b ha hb (Option.some.inj he)]

theorem scope_exact_small_prefix : sampleEngine.validate ⟨["10.0.0.8/30"], [22]⟩ =
        .ok ([⟨"10.0.0.8/30", "10.0.0.9", []⟩, ⟨"10.0.0.8/30", "10.0.0.10", []⟩], [22]) ∧
      ∀ x, x ∈ ["10.0.0.9", "10.0.0.10"] ↔
        ∃ entry ∈ ["10.0.0.8/30"], ∃ a, Expands sampleEngine.lookupIP entry a ∧ x = text a := by
  have hv : sampleEngine.validate ⟨["10.0.0.8/30"], [22]⟩ =
      .ok ([⟨"10.0.0.8/30", "10.0.0.9", []⟩, ⟨"10.0.0.8/30", "10.0.0.10", []⟩], [22]) := by decide +kernel
  exact ⟨hv, (scope_exact_iff hv).1.1⟩

end Mossward.L4.ScanScope
