import Mossward.L1Encoding.AddrText

/-!
# Addresses as numbers

The addresses of a family, and of a zone, are numbered. `Next`, `Masked`,
`Contains` and `Compare` of `netip` are translated to those numbers once, so that
loops over a prefix or a range are loops over numbers.

Results:
* `next_eq`: the next address is the next number.
* `masked_contains_iff`.
-/
namespace Mossward.L1.AddrRange

open L1.NetAddr L1.AddrText

/-! ## Model -/

/-- `Addr.BitLen`. -/
def bitLen : Addr → Nat
  | .v4 _ => 32
  | .v6 _ _ => 128

def value : Addr → Nat
  | .v4 bits => bits.toNat
  | .v6 bits _ => bits.toNat

/-- `Addr.Zone`. -/
def zone : Addr → String
  | .v4 _ => ""
  | .v6 _ zone => zone

/-- The address of the same family and zone with this number. -/
def withValue (a : Addr) (n : Nat) : Addr :=
  match a with
  | .v4 _ => .v4 (BitVec.ofNat 32 n)
  | .v6 _ zone => .v6 (BitVec.ofNat 128 n) zone

/-- `Addr.Next`; `none` is the zero `Addr` after the last address. -/
def next : Addr → Option Addr
  | .v4 bits => if bits + 1 = 0 then none else some (.v4 (bits + 1))
  | .v6 bits zone => if bits + 1 = 0 then none else some (.v6 (bits + 1) zone)

/-- `Addr.Compare` gives a positive number. -/
def after (a b : Addr) : Bool :=
  bitLen b < bitLen a ||
    (bitLen a = bitLen b && (value b < value a || (value a = value b && zone b < zone a)))

/-- `Prefix.Masked`. -/
def masked (p : Prefix) : Prefix :=
  match p.addr with
  | .v4 bits => ⟨.v4 (bits >>> (32 - p.bits) <<< (32 - p.bits)), p.bits⟩
  | .v6 bits zone => ⟨.v6 (bits >>> (128 - p.bits) <<< (128 - p.bits)) zone, p.bits⟩

/-- `net.IPNet`, with its number and mask. -/
inductive IPNet
  | v4 (ip mask : BitVec 32)
  | v6 (ip mask : BitVec 128)
deriving DecidableEq, Repr

/-- `networkNumberAndMask`: a mapped network is an IPv4 network. -/
def IPNet.numberAndMask : IPNet → IPNet
  | .v4 ip mask => .v4 ip mask
  | .v6 ip mask => if is4In6 ip then .v4 (ip.setWidth 32) (mask.setWidth 32) else .v6 ip mask

/-- `IPNet.Contains` of an address' bytes; the zone plays no part. -/
def IPNet.contains (n : IPNet) (a : Addr) : Bool :=
  match n.numberAndMask, unmap a with
  | .v4 ip mask, .v4 bits => ip &&& mask = bits &&& mask
  | .v6 ip mask, .v6 bits _ => ip &&& mask = bits &&& mask
  | _, _ => false

/-! ## Numbers -/

/-- The same family and zone. -/
def Kin (a b : Addr) : Prop := withValue a 0 = withValue b 0

instance (a b : Addr) : Decidable (Kin a b) := inferInstanceAs (Decidable (withValue a 0 = withValue b 0))

variable (a : Addr)

theorem value_lt : value a < 2 ^ bitLen a := by
  cases a with
  | v4 bits => exact bits.isLt
  | v6 bits zone => exact bits.isLt

theorem bitLen_le : bitLen a ≤ 128 := by
  cases a with
  | v4 bits => show 32 ≤ 128; omega
  | v6 bits zone => exact le_rfl

@[simp] theorem bitLen_withValue (n : Nat) : bitLen (withValue a n) = bitLen a := by
  cases a with
  | v4 bits => rfl
  | v6 bits zone => rfl

@[simp] theorem withValue_withValue (m n : Nat) : withValue (withValue a m) n = withValue a n := by
  cases a with
  | v4 bits => rfl
  | v6 bits zone => rfl

theorem value_withValue {a : Addr} {n : Nat} (h : n < 2 ^ bitLen a) : value (withValue a n) = n := by
  cases a with
  | v4 bits => exact Nat.mod_eq_of_lt h
  | v6 bits zone => exact Nat.mod_eq_of_lt h

@[simp] theorem withValue_value : withValue a (value a) = a := by
  cases a with
  | v4 bits => simp [withValue, value]
  | v6 bits zone => simp [withValue, value]

theorem kin_withValue (n : Nat) : Kin (withValue a n) a := by
  unfold Kin
  rw [withValue_withValue]

theorem Kin.refl : Kin a a := rfl

variable {b : Addr}

section
variable {a : Addr} (h : Kin a b)
include h

theorem Kin.symm : Kin b a := Eq.symm h

theorem Kin.trans {c : Addr} (h' : Kin b c) : Kin a c := Eq.trans h h'

theorem Kin.withValue_eq (n : Nat) : withValue a n = withValue b n := by
  have hk := congrArg (fun c => withValue c n) h
  simpa using hk

theorem Kin.bitLen_eq : bitLen a = bitLen b := by
  have hk := congrArg bitLen h
  simpa using hk

theorem Kin.eq_of_value (hv : value a = value b) : a = b := by
  rw [← withValue_value a, ← withValue_value b, hv, h.withValue_eq]

end

theorem add_one_eq {w : Nat} (bits : BitVec w) : bits + 1 = BitVec.ofNat w (bits.toNat + 1) := by
  apply BitVec.eq_of_toNat_eq
  rw [BitVec.toNat_add, BitVec.toNat_ofNat, BitVec.ofNat_eq_ofNat, BitVec.toNat_ofNat, Nat.add_mod_mod]

theorem add_one_eq_zero_iff {w : Nat} (bits : BitVec w) : bits + 1 = 0 ↔ ¬ bits.toNat + 1 < 2 ^ w := by
  rw [add_one_eq, ← BitVec.toNat_inj, BitVec.toNat_ofNat, BitVec.ofNat_eq_ofNat, BitVec.toNat_ofNat, Nat.zero_mod]
  constructor
  · intro h hn
    rw [Nat.mod_eq_of_lt hn] at h
    omega
  · intro h
    have hf : bits.toNat + 1 = 2 ^ w := by omega
    rw [hf, Nat.mod_self]

theorem next_eq :
    next a = if value a + 1 < 2 ^ bitLen a then some (withValue a (value a + 1)) else none := by
  cases a with
  | v4 bits =>
    show (if bits + 1 = 0 then none else some (Addr.v4 (bits + 1))) =
      if bits.toNat + 1 < 2 ^ 32 then some (.v4 (BitVec.ofNat 32 (bits.toNat + 1))) else none
    by_cases h : bits.toNat + 1 < 2 ^ 32
    · rw [if_neg (fun h0 => (add_one_eq_zero_iff bits).mp h0 h), if_pos h, add_one_eq]
    · rw [if_pos ((add_one_eq_zero_iff bits).mpr h), if_neg h]
  | v6 bits zone =>
    show (if bits + 1 = 0 then none else some (Addr.v6 (bits + 1) zone)) =
      if bits.toNat + 1 < 2 ^ 128 then some (.v6 (BitVec.ofNat 128 (bits.toNat + 1)) zone) else none
    by_cases h : bits.toNat + 1 < 2 ^ 128
    · rw [if_neg (fun h0 => (add_one_eq_zero_iff bits).mp h0 h), if_pos h, add_one_eq]
    · rw [if_pos ((add_one_eq_zero_iff bits).mpr h), if_neg h]

/-! ## Prefixes -/

/-- What `ParsePrefix` ensures: no more bits than the family has, and no zone. -/
structure WellFormed (p : Prefix) : Prop where
  bits : p.bits ≤ bitLen p.addr
  zone : zone p.addr = ""

/-- The number of addresses. -/
def size (p : Prefix) : Nat := 2 ^ (bitLen p.addr - p.bits)

/-- The number of the first address. -/
def low (p : Prefix) : Nat := value p.addr / size p * size p

theorem size_pos (p : Prefix) : 0 < size p := Nat.two_pow_pos _

theorem low_add_size_le (p : Prefix) : low p + size p ≤ 2 ^ bitLen p.addr := by
  have hd : size p ∣ 2 ^ bitLen p.addr := Nat.pow_dvd_pow 2 (Nat.sub_le _ _)
  have hl : value p.addr / size p < 2 ^ bitLen p.addr / size p :=
    Nat.div_lt_div_of_lt_of_dvd hd (value_lt p.addr)
  calc low p + size p = (value p.addr / size p + 1) * size p := by
        unfold low
        ring
    _ ≤ 2 ^ bitLen p.addr / size p * size p := Nat.mul_le_mul_right _ hl
    _ = 2 ^ bitLen p.addr := Nat.div_mul_cancel hd

theorem toNat_clear_low {w : Nat} (bits : BitVec w) (k : Nat) :
    (bits >>> k <<< k).toNat = bits.toNat / 2 ^ k * 2 ^ k := by
  have hl : bits.toNat / 2 ^ k * 2 ^ k < 2 ^ w := lt_of_le_of_lt (Nat.div_mul_le_self _ _) bits.isLt
  rw [BitVec.toNat_shiftLeft, BitVec.toNat_ushiftRight, Nat.shiftRight_eq_div_pow, Nat.shiftLeft_eq,
    Nat.mod_eq_of_lt hl]

theorem xor_shift_eq_zero_iff {w : Nat} (a b : BitVec w) (k : Nat) :
    (a ^^^ (b >>> k <<< k)) >>> k = 0 ↔ b.toNat / 2 ^ k * 2 ^ k ≤ a.toNat ∧
      a.toNat < b.toNat / 2 ^ k * 2 ^ k + 2 ^ k := by
  have hp := Nat.two_pow_pos k
  have hs : (a ^^^ (b >>> k <<< k)) >>> k = 0 ↔ a.toNat / 2 ^ k = b.toNat / 2 ^ k := by
    rw [BitVec.ushiftRight_xor_distrib, BitVec.ofNat_eq_ofNat, BitVec.xor_eq_zero_iff, ← BitVec.toNat_inj,
      BitVec.toNat_ushiftRight, BitVec.toNat_ushiftRight, toNat_clear_low, Nat.shiftRight_eq_div_pow,
      Nat.shiftRight_eq_div_pow, Nat.mul_div_cancel _ hp]
  rw [hs, Nat.div_eq_iff hp]
  constructor
  · intro ⟨hl, hh⟩
    exact ⟨hl, by omega⟩
  · intro ⟨hl, hh⟩
    exact ⟨hl, by omega⟩

@[simp] theorem masked_bits (p : Prefix) : (masked p).bits = p.bits := by
  unfold masked
  split <;> rfl

theorem masked_addr (p : Prefix) : (masked p).addr = withValue p.addr (low p) := by
  obtain ⟨a, n⟩ := p
  cases a with
  | v4 bits =>
    show Addr.v4 _ = Addr.v4 (BitVec.ofNat 32 (bits.toNat / 2 ^ (32 - n) * 2 ^ (32 - n)))
    rw [← toNat_clear_low, BitVec.ofNat_toNat, BitVec.setWidth_eq]
  | v6 bits zone =>
    show Addr.v6 _ _ = Addr.v6 (BitVec.ofNat 128 (bits.toNat / 2 ^ (128 - n) * 2 ^ (128 - n))) _
    rw [← toNat_clear_low, BitVec.ofNat_toNat, BitVec.setWidth_eq]

/-- **Prefixes.** A prefix contains the addresses of its family between its first
and its last, and no others. -/
theorem masked_contains_iff {p : Prefix} (h : WellFormed p) (a : Addr) :
    (masked p).contains a = true ↔ Kin a p.addr ∧ low p ≤ value a ∧ value a < low p + size p := by
  obtain ⟨base, n⟩ := p
  have hzo := h.zone
  cases base with
  | v4 pb =>
    cases a with
    | v4 b =>
      show decide ((b ^^^ (pb >>> (32 - n) <<< (32 - n))) >>> (32 - n) = 0) = true ↔ _
      rw [decide_eq_true_eq, xor_shift_eq_zero_iff]
      exact (and_iff_right rfl).symm
    | v6 b z =>
      constructor
      · intro hf
        cases hf
      · intro hki
        cases hki.1
  | v6 pb pz =>
    cases a with
    | v4 b =>
      constructor
      · intro hf
        cases hf
      · intro hki
        cases hki.1
    | v6 b z =>
      have hz : pz = "" := hzo
      have hki : Kin (.v6 b z) (.v6 pb pz) ↔ z = "" := by
        rw [hz]
        exact ⟨fun hk => (Addr.v6.inj hk).2, fun he => by rw [he]; rfl⟩
      show (decide (z = "") && decide ((b ^^^ (pb >>> (128 - n) <<< (128 - n))) >>> (128 - n) = 0)) = true ↔ _
      rw [Bool.and_eq_true, decide_eq_true_eq, decide_eq_true_eq, xor_shift_eq_zero_iff, hki]
      exact Iff.rfl

theorem parsePrefix_wellFormed {t : String} {p : Prefix} (h : parsePrefix t = some p) : WellFormed p := by
  unfold parsePrefix at h
  dsimp only at h
  split at h
  · split at h
    · split at h
      · next hl =>
        cases h
        exact ⟨hl, rfl⟩
      · cases h
    · split at h
      · next hl =>
        cases h
        rw [Bool.and_eq_true, decide_eq_true_eq, decide_eq_true_eq] at hl
        exact ⟨hl.2, hl.1⟩
      · cases h
    · cases h
  · cases h

end Mossward.L1.AddrRange
