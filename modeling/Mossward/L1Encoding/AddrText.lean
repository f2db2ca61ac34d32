import Mathlib.Data.List.TakeWhile
import Mossward.Core.Bytes
import Mossward.L1Encoding.NetAddr

/-!
# The text of a network address

`netip.Addr.String` as the standard library has it: IPv4 addresses in decimal,
IPv6 addresses in lower-case hexadecimal groups without leading zeros, the first
of the longest runs of zero groups as `::`, and the IPv4 part of a mapped address
in decimal.

Results:
* `text_inj`: the text determines the address.
* `parseAddr_text`.
-/
namespace Mossward.L1.AddrText

open L1.NetAddr List

/-! ## Numbers -/

/-- `appendDecimal`, for a byte. -/
def decimal (x : Nat) : List Char :=
  (if 100 ≤ x then [Nat.digitChar (x / 100)] else []) ++ (if 10 ≤ x then [Nat.digitChar (x / 10 % 10)] else []) ++
    [Nat.digitChar (x % 10)]

/-- `appendHex`, for a group. -/
def hex (x : Nat) : List Char :=
  (if 0x1000 ≤ x then [Nat.digitChar (x / 0x1000)] else []) ++
    (if 0x100 ≤ x then [Nat.digitChar (x / 0x100 % 16)] else []) ++
    (if 0x10 ≤ x then [Nat.digitChar (x / 0x10 % 16)] else []) ++ [Nat.digitChar (x % 16)]

/-- The `k` last digits of a number, most significant first. -/
def digitsOf (base : Nat) : Nat → Nat → List Nat
  | 0, _ => []
  | k + 1, n => digitsOf base k (n / base) ++ [n % base]

/-! ## Texts -/

def octets (bits : BitVec 32) : List Nat := digitsOf 256 4 bits.toNat
def groups (bits : BitVec 128) : List Nat := digitsOf 65536 8 bits.toNat

/-- The bytes of groups. -/
def bytes (gs : List Nat) : List Nat := gs.flatMap fun g => [g / 256, g % 256]

/-- The numbers with a separator between them. -/
def join (write : Nat → List Char) (separator : Char) (xs : List Nat) : List Char :=
  intercalate [separator] (xs.map write)

def text4 (bits : BitVec 32) : List Char := join decimal '.' (octets bits)

/-- How many groups from the `i`-th on are zero. -/
def zerosAt (gs : List Nat) (i : Nat) : Nat := ((gs.drop i).takeWhile (· = 0)).length

/-- Start and length of the first longest run of at least two zero groups; a
length of zero if there is none. -/
def zeroRun (gs : List Nat) : Nat × Nat :=
  (range 8).foldl (fun best i => if 2 ≤ zerosAt gs i ∧ best.2 < zerosAt gs i then (i, zerosAt gs i) else best)
    (255, 0)

/-- `appendTo6` without the zone. -/
def text6 (gs : List Nat) : List Char :=
  let run := zeroRun gs
  if run.2 = 0 then join hex ':' gs
  else join hex ':' (gs.take run.1) ++ ':' :: ':' :: join hex ':' (gs.drop (run.1 + run.2))

/-- `Is4In6`. -/
def is4In6 (bits : BitVec 128) : Bool := bits.toNat / 2 ^ 32 = 0xffff

def zoneText (zone : String) : List Char := if zone = "" then [] else '%' :: zone.toList

/-- `Addr.String`. -/
def text : Addr → String
  | .v4 bits => String.ofList (text4 bits)
  | .v6 bits zone =>
    String.ofList
      ((if is4In6 bits then "::ffff:".toList ++ text4 (bits.setWidth 32) else text6 (groups bits)) ++ zoneText zone)

/-- `netip.AddrFromSlice`. -/
def addrFromSlice (s : Bytes) : Option Addr :=
  if s.length = 4 then some (.v4 (BitVec.ofNat 32 (bigEndian (s.map UInt8.toNat))))
  else if s.length = 16 then some (.v6 (BitVec.ofNat 128 (bigEndian (s.map UInt8.toNat))) "")
  else none

/-- `Addr.Unmap`. -/
def unmap : Addr → Addr
  | .v4 bits => .v4 bits
  | .v6 bits zone => if is4In6 bits then .v4 (bits.setWidth 32) else .v6 bits zone

/-! ## Digits -/

theorem length_digitsOf (base k n : Nat) : (digitsOf base k n).length = k := by
  induction k generalizing n with
  | zero => rfl
  | succ k ih => rw [digitsOf, length_append, ih, length_singleton]

theorem digitsOf_lt {base k n d : Nat} (hb : 0 < base) (h : d ∈ digitsOf base k n) : d < base := by
  induction k generalizing n with
  | zero => cases h
  | succ k ih =>
    rw [digitsOf, mem_append, mem_singleton] at h
    rcases h with h | h
    · exact ih h
    · rw [h]
      exact Nat.mod_lt _ hb

theorem bigEndian_append (xs ys : List Nat) :
    bigEndian (xs ++ ys) = bigEndian xs * 256 ^ ys.length + bigEndian ys := by
  have hf : ∀ (ys : List Nat) (acc : Nat),
      ys.foldl (fun acc b => acc * 256 + b) acc = acc * 256 ^ ys.length + ys.foldl (fun acc b => acc * 256 + b) 0 := by
    intro ys
    induction ys with
    | nil => simp
    | cons y ys ih =>
      intro acc
      rw [foldl_cons, foldl_cons, ih, ih (0 * 256 + y), length_cons]
      ring
  unfold bigEndian
  rw [foldl_append, hf]

theorem mod_base_pow (base k n : Nat) : n / base % base ^ k * base + n % base = n % base ^ (k + 1) := by
  have hm : base ^ (k + 1) = base * base ^ k := by ring
  rw [hm, Nat.mod_mul]
  ring

theorem bigEndian_octets (k n : Nat) : bigEndian (digitsOf 256 k n) = n % 256 ^ k := by
  induction k generalizing n with
  | zero => simp [digitsOf, bigEndian, Nat.mod_one]
  | succ k ih =>
    rw [digitsOf, bigEndian_append, ih, ← mod_base_pow]
    simp [bigEndian]

theorem bigEndian_bytes_digitsOf (k n : Nat) : bigEndian (bytes (digitsOf 65536 k n)) = n % 65536 ^ k := by
  induction k generalizing n with
  | zero => simp [digitsOf, bytes, bigEndian, Nat.mod_one]
  | succ k ih =>
    have hl : bigEndian [n % 65536 / 256, n % 65536 % 256] = n % 65536 := by
      simp [bigEndian]
      omega
    rw [digitsOf, bytes, flatMap_append, bigEndian_append, ← bytes, ih, ← mod_base_pow]
    simp only [flatMap_cons, flatMap_nil, append_nil, hl]
    norm_num

theorem bigEndian_groups (bits : BitVec 128) : BitVec.ofNat 128 (bigEndian (bytes (groups bits))) = bits := by
  unfold groups
  rw [bigEndian_bytes_digitsOf, show 65536 ^ 8 = 2 ^ 128 by norm_num, Nat.mod_eq_of_lt bits.isLt]
  exact BitVec.ofNat_toNat 128 bits |>.trans (by simp)

variable (bits : BitVec 32)

theorem bigEndian_octets4 : bigEndian (octets bits) = bits.toNat := by
  unfold octets
  rw [bigEndian_octets, show 256 ^ 4 = 2 ^ 32 by norm_num, Nat.mod_eq_of_lt bits.isLt]

/-! ## Numbers read back -/

theorem parseIPv4Fields_digit {d val digLen : Nat} (hd : d < 10) (hz : ¬ (digLen = 1 ∧ val = 0))
    (hva : val * 10 + d ≤ 255) (cs : List Char) (fs : List Nat) (atStart : Bool) :
    parseIPv4Fields (Nat.digitChar d :: cs) fs val digLen atStart =
      parseIPv4Fields cs fs (val * 10 + d) (digLen + 1) false := by
  have ha : ∀ d : Fin 10, (Nat.digitChar d).isDigit = true ∧ (Nat.digitChar d).toNat - '0'.toNat = d.1 := by decide
  have hdi : (Nat.digitChar d).isDigit = true := (ha ⟨d, hd⟩).1
  have hv : (Nat.digitChar d).toNat - '0'.toNat = d := (ha ⟨d, hd⟩).2
  rw [parseIPv4Fields, if_pos hdi, hv, if_neg (by simpa using hz), if_neg (by omega)]

variable {x : Nat}

/-- A byte is read up to what follows it; the length it leaves plays no part at a
dot or at the end. -/
theorem parseIPv4Fields_decimal (hx : x < 256) (rest : List Char) (fs : List Nat) :
    ∃ k, parseIPv4Fields (decimal x ++ rest) fs 0 0 true = parseIPv4Fields rest fs x k false := by
  unfold decimal
  by_cases h100 : 100 ≤ x
  · have hv : ((0 * 10 + x / 100) * 10 + x / 10 % 10) * 10 + x % 10 = x := by omega
    rw [if_pos h100, if_pos (by omega)]
    simp only [cons_append, nil_append]
    rw [parseIPv4Fields_digit (by omega) (by omega) (by omega), parseIPv4Fields_digit (by omega) (by omega) (by omega),
      parseIPv4Fields_digit (by omega) (by omega) (by omega), hv]
    exact ⟨_, rfl⟩
  rw [if_neg h100]
  by_cases h10 : 10 ≤ x
  · have hv : (0 * 10 + x / 10 % 10) * 10 + x % 10 = x := by omega
    rw [if_pos h10]
    simp only [cons_append, nil_append]
    rw [parseIPv4Fields_digit (by omega) (by omega) (by omega),
      parseIPv4Fields_digit (by omega) (by omega) (by omega), hv]
    exact ⟨_, rfl⟩
  have hv : 0 * 10 + x % 10 = x := by omega
  rw [if_neg h10]
  simp only [cons_append, nil_append]
  rw [parseIPv4Fields_digit (by omega) (by omega) (by omega), hv]
  exact ⟨_, rfl⟩

/-- What follows a group ends it. -/
def Stops (rest : List Char) : Prop := ∀ c ∈ rest.head?, hexValue c = none

variable {rest : List Char}

theorem hexGroup_stop (h : Stops rest) (acc off : Nat) : hexGroup rest acc off = some (acc, off, rest) := by
  cases rest with
  | nil => rfl
  | cons c cs => rw [hexGroup, h c rfl]

/-- The text is a group of these hex digits. -/
structure IsGroup (text : List Char) (ds : List Nat) : Prop where
  text_eq : text = ds.map Nat.digitChar
  ne_nil : ds ≠ []
  length_le : ds.length ≤ 4
  digit_lt : ∀ d ∈ ds, d < 16

theorem hexGroup_digits {ds : List Nat} (hd : ∀ d ∈ ds, d < 16) (hr : Stops rest) {acc off : Nat}
    (ha : acc < 16 ^ off) (ho : off + ds.length ≤ 4) :
    hexGroup (ds.map Nat.digitChar ++ rest) acc off =
      some (ds.foldl (fun acc d => acc * 16 + d) acc, off + ds.length, rest) := by
  induction ds generalizing acc off with
  | nil => exact hexGroup_stop hr acc off
  | cons d ds ih =>
    have hlt := hd d mem_cons_self
    rw [length_cons] at ho
    have hn : acc * 16 + d < 16 ^ (off + 1) := by
      rw [Nat.pow_succ]
      omega
    have hp : 16 ^ (off + 1) ≤ 16 ^ 4 := Nat.pow_le_pow_right (by omega) (by omega)
    rw [map_cons, cons_append, hexGroup, hexValue_digitChar hlt]
    dsimp only
    rw [if_neg (by omega), if_neg (by omega), ih (fun e he => hd e (mem_cons_of_mem _ he)) hn (by omega), length_cons,
      Nat.add_right_comm, Nat.add_assoc]
    rfl

section
variable {s : List Char} {ds : List Nat} (h : IsGroup s ds)
include h

theorem IsGroup.read (hr : Stops rest) :
    ∃ k, k ≠ 0 ∧ hexGroup (s ++ rest) 0 0 = some (ds.foldl (fun acc d => acc * 16 + d) 0, k, rest) := by
  refine ⟨0 + ds.length, by simpa using h.ne_nil, ?_⟩
  rw [h.text_eq]
  exact hexGroup_digits h.digit_lt hr (by decide) (by simpa using h.length_le)

theorem IsGroup.chars : ∀ c ∈ s, hexValue c ≠ none := by
  intro c hc
  rw [h.text_eq, mem_map] at hc
  obtain ⟨d, hd, rfl⟩ := hc
  simp [hexValue_digitChar (h.digit_lt d hd)]

end

def hexDigits (x : Nat) : List Nat :=
  (if 0x1000 ≤ x then [x / 0x1000] else []) ++ (if 0x100 ≤ x then [x / 0x100 % 16] else []) ++
    (if 0x10 ≤ x then [x / 0x10 % 16] else []) ++ [x % 16]

def decimalDigits (x : Nat) : List Nat :=
  (if 100 ≤ x then [x / 100] else []) ++ (if 10 ≤ x then [x / 10 % 10] else []) ++ [x % 10]

theorem hex_isGroup (hx : x < 65536) : IsGroup (hex x) (hexDigits x) := by
  unfold hex hexDigits
  constructor
  · split_ifs <;> rfl
  · simp
  · split_ifs <;> simp
  · split_ifs <;> simp <;> omega

theorem hexDigits_value (hx : x < 65536) : (hexDigits x).foldl (fun acc d => acc * 16 + d) 0 = x := by
  unfold hexDigits
  split_ifs <;> simp <;> omega

/-- The digits of a byte are also hex digits: the first field of an embedded IPv4
address is read as a group before its dot is seen. -/
theorem decimal_isGroup (hx : x < 256) : IsGroup (decimal x) (decimalDigits x) := by
  unfold decimal decimalDigits
  constructor
  · split_ifs <;> rfl
  · simp
  · split_ifs <;> simp
  · split_ifs <;> simp <;> omega

theorem hexGroup_hex (hx : x < 65536) (hr : Stops rest) :
    ∃ k, k ≠ 0 ∧ hexGroup (hex x ++ rest) 0 0 = some (x, k, rest) := by
  have hg := (hex_isGroup hx).read hr
  rwa [hexDigits_value hx] at hg

/-! ## Joined numbers -/

theorem hex_ne_nil (x : Nat) : hex x ≠ [] := by simp [hex]

theorem decimal_ne_nil (x : Nat) : decimal x ≠ [] := by simp [decimal]

@[simp] theorem join_nil (write : Nat → List Char) (sep : Char) : join write sep [] = [] := rfl

@[simp] theorem join_singleton (write : Nat → List Char) (sep : Char) (x : Nat) :
    join write sep [x] = write x := by
  simp [join]

theorem join_cons_cons (write : Nat → List Char) (sep : Char) (x y : Nat) (xs : List Nat) :
    join write sep (x :: y :: xs) = write x ++ sep :: join write sep (y :: xs) := by
  simp [join]

theorem mem_join {write : Nat → List Char} {sep c : Char} {xs : List Nat} (h : c ∈ join write sep xs) :
    c = sep ∨ ∃ x ∈ xs, c ∈ write x := by
  induction xs with
  | nil => simp at h
  | cons x xs ih =>
    cases xs with
    | nil => exact Or.inr ⟨x, mem_singleton_self x, by simpa using h⟩
    | cons y ys =>
      rw [join_cons_cons, mem_append, mem_cons] at h
      rcases h with h | h | h
      · exact Or.inr ⟨x, mem_cons_self, h⟩
      · exact Or.inl h
      · rcases ih h with h | ⟨z, hz, h⟩
        · exact Or.inl h
        · exact Or.inr ⟨z, mem_cons_of_mem _ hz, h⟩

section
variable {g : Nat} (hg : g < 65536)
include hg

theorem join_hex_head (gs : List Nat) : ∃ c cs, join hex ':' (g :: gs) = c :: cs ∧ c ≠ ':' := by
  obtain ⟨c, cs, hh⟩ := exists_cons_of_ne_nil (hex_ne_nil g)
  have hco : c ≠ ':' := by
    intro hc
    exact (hex_isGroup hg).chars c (by simp [hh]) (by rw [hc]; rfl)
  cases gs with
  | nil => exact ⟨c, cs, by rw [join_singleton, hh], hco⟩
  | cons y ys => exact ⟨c, _, by rw [join_cons_cons, hh, cons_append], hco⟩

/-! ## Groups read back -/

theorem parseGroups_last (fuel : Nat) (ip : List Nat) (ell : Option Nat) :
    parseGroups (fuel + 1) (hex g) ip ell = some ⟨ip ++ [g / 256, g % 256], ell, []⟩ := by
  obtain ⟨k, hk, hgr⟩ := @hexGroup_hex g [] hg (by simp [Stops])
  rw [append_nil] at hgr
  simp [parseGroups, hgr, hk]

theorem parseGroups_next {c : Char} (hc : c ≠ ':') (fuel : Nat) (cs : List Char)
    (ip : List Nat) (ell : Option Nat) :
    parseGroups (fuel + 1) (hex g ++ ':' :: c :: cs) ip ell =
      parseGroups fuel (c :: cs) (ip ++ [g / 256, g % 256]) ell := by
  obtain ⟨k, hk, hgr⟩ := @hexGroup_hex g (':' :: c :: cs) hg (by simp [Stops]; decide)
  simp [parseGroups, hgr, hk]

theorem parseGroups_gap (fuel : Nat) (s : List Char) (ip : List Nat) :
    parseGroups (fuel + 1) (hex g ++ ':' :: ':' :: s) ip none =
      if s = [] then some ⟨ip ++ [g / 256, g % 256], some (ip.length + 2), []⟩
      else parseGroups fuel s (ip ++ [g / 256, g % 256]) (some (ip.length + 2)) := by
  obtain ⟨k, hk, hgr⟩ := @hexGroup_hex g (':' :: ':' :: s) hg (by simp [Stops]; decide)
  simp [parseGroups, hgr, hk]

end

theorem bytes_cons (g : Nat) (gs : List Nat) : bytes (g :: gs) = [g / 256, g % 256] ++ bytes gs := rfl

theorem length_bytes (gs : List Nat) : (bytes gs).length = 2 * gs.length := by
  induction gs with
  | nil => rfl
  | cons g gs ih =>
    rw [bytes_cons]
    simp
    omega

variable {gs : List Nat}

theorem parseGroups_join (hgs : ∀ g ∈ gs, g < 65536) (hn : gs ≠ []) {fuel : Nat}
    (hf : gs.length ≤ fuel) (ip : List Nat) (ell : Option Nat) :
    parseGroups fuel (join hex ':' gs) ip ell = some ⟨ip ++ bytes gs, ell, []⟩ := by
  induction gs generalizing fuel ip with
  | nil => exact absurd rfl hn
  | cons g gs ih =>
    obtain ⟨fuel, rfl⟩ : ∃ n, fuel = n + 1 := Nat.exists_eq_succ_of_ne_zero (by simp at hf; omega)
    have hg := hgs g mem_cons_self
    cases gs with
    | nil => rw [join_singleton, parseGroups_last hg]; rfl
    | cons y ys =>
      obtain ⟨c, cs, hj, hc⟩ := join_hex_head (hgs y (by simp)) ys
      have hr := ih (fun g h => hgs g (mem_cons_of_mem _ h)) (by simp) (by simpa using hf)
      rw [join_cons_cons, hj, parseGroups_next hg hc, ← hj, hr, bytes_cons g, append_assoc]

theorem parseGroups_join_gap (hgs : ∀ g ∈ gs, g < 65536) (hn : gs ≠ []) {fuel : Nat}
    (hf : gs.length ≤ fuel) (s : List Char) (ip : List Nat) :
    parseGroups fuel (join hex ':' gs ++ ':' :: ':' :: s) ip none =
      if s = [] then some ⟨ip ++ bytes gs, some (ip.length + 2 * gs.length), []⟩
      else parseGroups (fuel - gs.length) s (ip ++ bytes gs) (some (ip.length + 2 * gs.length)) := by
  induction gs generalizing fuel ip with
  | nil => exact absurd rfl hn
  | cons g gs ih =>
    obtain ⟨fuel, rfl⟩ : ∃ n, fuel = n + 1 := Nat.exists_eq_succ_of_ne_zero (by simp at hf; omega)
    have hg := hgs g mem_cons_self
    cases gs with
    | nil => rw [join_singleton, parseGroups_gap hg]; rfl
    | cons y ys =>
      obtain ⟨c, cs, hj, hc⟩ := join_hex_head (hgs y (by simp)) ys
      have hr := ih (fun g h => hgs g (mem_cons_of_mem _ h)) (by simp) (by simpa using hf)
      have hl : (ip ++ [g / 256, g % 256]).length + 2 * (y :: ys).length =
          ip.length + 2 * (g :: y :: ys).length := by
        simp
        omega
      have hle : fuel - (y :: ys).length = fuel + 1 - (g :: y :: ys).length := by simp
      rw [join_cons_cons, append_assoc, cons_append, hj, cons_append, parseGroups_next hg hc,
        ← cons_append, ← hj, hr, bytes_cons g, append_assoc, hl, hle]

/-! ## The address of a text -/

theorem parseIPv6Bytes_join (hg : ∀ g ∈ gs, g < 65536) (hl : gs.length = 8) :
    parseIPv6Bytes (join hex ':' gs) = some (bytes gs) := by
  have hn : gs ≠ [] := by
    intro h
    simp [h] at hl
  have hr := parseGroups_join hg hn hl.le [] none
  have he : expand ⟨bytes gs, none, []⟩ = some (bytes gs) := by
    have hb := length_bytes gs
    simp [expand, show ¬ (bytes gs).length < 16 by omega]
  obtain ⟨g, gs, rfl⟩ := exists_cons_of_ne_nil hn
  obtain ⟨c, cs, hj, hc⟩ := join_hex_head (hg g mem_cons_self) gs
  have hco : ∀ s, c :: cs ≠ ':' :: ':' :: s := by
    intro s h
    exact hc (cons.inj h).1
  rw [hj] at hr ⊢
  rw [parseIPv6Bytes, hr]
  · simpa using he
  · exact hco

theorem bytes_replicate (n : Nat) : bytes (replicate n 0) = replicate (2 * n) 0 := by
  induction n with
  | zero => rfl
  | succ n ih =>
    rw [replicate_succ, bytes_cons, ih]
    rfl

theorem bytes_append (xs ys : List Nat) : bytes (xs ++ ys) = bytes xs ++ bytes ys := flatMap_append

theorem expand_gap {pre post : List Nat} {n : Nat} (hn : n ≠ 0) (hl : pre.length + n + post.length = 8) :
    expand ⟨bytes pre ++ bytes post, some (2 * pre.length), []⟩ =
      some (bytes (pre ++ replicate n 0 ++ post)) := by
  have hs : (bytes pre ++ bytes post).length = 16 - 2 * n := by
    rw [length_append, length_bytes, length_bytes]
    omega
  have ht : (bytes pre ++ bytes post).take (2 * pre.length) = bytes pre := take_left' (length_bytes pre)
  have hd : (bytes pre ++ bytes post).drop (2 * pre.length) = bytes post := drop_left' (length_bytes pre)
  have hm : 16 - (16 - 2 * n) = 2 * n := by omega
  rw [expand, if_neg (by simp), if_pos (by simp only [hs]; omega)]
  simp only [Option.map_some, ht, hd, hs, hm]
  rw [bytes_append, bytes_append, bytes_replicate]

/-- However a run of zero groups was chosen, `::` in its place is read back. -/
theorem parseIPv6Bytes_gap {pre post : List Nat} {n : Nat} (hpr : ∀ g ∈ pre, g < 65536) (hp : ∀ g ∈ post, g < 65536)
    (hn : n ≠ 0) (hl : pre.length + n + post.length = 8) :
    parseIPv6Bytes (join hex ':' pre ++ ':' :: ':' :: join hex ':' post) =
      some (bytes (pre ++ replicate n 0 ++ post)) := by
  have hexp := expand_gap hn hl
  have hem : join hex ':' post = [] ↔ post = [] := by
    constructor
    · intro h
      by_contra hne
      obtain ⟨g, gs, rfl⟩ := exists_cons_of_ne_nil hne
      obtain ⟨c, cs, hj, -⟩ := join_hex_head (hp g mem_cons_self) gs
      simp [hj] at h
    · intro h
      rw [h, join_nil]
  by_cases hs : pre = []
  · -- the text begins with the gap
    subst hs
    rw [join_nil, nil_append, parseIPv6Bytes]
    by_cases he : post = []
    · subst he
      have hal : n = 8 := by simpa using hl
      rw [hal]
      rfl
    · have hr := @parseGroups_join post hp he 8 (by omega) [] (some 0)
      rw [if_neg (by simpa [hem] using he), hr]
      exact hexp
  have hr := @parseGroups_join_gap pre hpr hs 8 (by omega) (join hex ':' post) []
  obtain ⟨g, gs, rfl⟩ := exists_cons_of_ne_nil hs
  obtain ⟨c, cs, hj, hc⟩ := join_hex_head (hpr g mem_cons_self) gs
  rw [hj] at hr ⊢
  rw [parseIPv6Bytes, hr]
  · by_cases he : post = []
    · subst he
      simpa [bytes] using hexp
    · have ha := @parseGroups_join post hp he (8 - (g :: gs).length) (by omega) ([] ++ bytes (g :: gs))
      rw [if_neg (by simpa [hem] using he), ha]
      simpa using hexp
  · intro s h
    exact hc (cons.inj h).1

theorem zeroRun_length (gs : List Nat) : (zeroRun gs).2 = 0 ∨ (zeroRun gs).2 = zerosAt gs (zeroRun gs).1 := by
  have hf : ∀ (is : List Nat) (best : Nat × Nat), (best.2 = 0 ∨ best.2 = zerosAt gs best.1) →
      let run := is.foldl
        (fun best i => if 2 ≤ zerosAt gs i ∧ best.2 < zerosAt gs i then (i, zerosAt gs i) else best) best
      run.2 = 0 ∨ run.2 = zerosAt gs run.1 := by
    intro is
    induction is with
    | nil => exact fun best h => h
    | cons i is ih =>
      intro best h
      apply ih
      dsimp only
      split
      · exact Or.inr rfl
      · exact h
  exact hf _ _ (Or.inl rfl)

theorem split_zeroRun (h : (zeroRun gs).2 ≠ 0) :
    gs = gs.take (zeroRun gs).1 ++ replicate (zeroRun gs).2 0 ++ gs.drop ((zeroRun gs).1 + (zeroRun gs).2) := by
  have hl := (zeroRun_length gs).resolve_left h
  generalize zeroRun gs = run at h hl ⊢
  have hz : ((gs.drop run.1).takeWhile (· = 0)) = replicate run.2 0 := by
    rw [eq_replicate_iff]
    refine ⟨hl.symm, ?_⟩
    intro g hg
    simpa using mem_takeWhile_imp hg
  have hr : gs.drop (run.1 + run.2) = (gs.drop run.1).dropWhile (· = 0) := by
    rw [← drop_drop, hl]
    conv_lhs => rw [← takeWhile_append_dropWhile (p := fun g => decide (g = 0)) (l := gs.drop run.1)]
    exact drop_left' rfl
  rw [← hz, hr, append_assoc, takeWhile_append_dropWhile, take_append_drop]

theorem parseIPv6Bytes_text6 (hg : ∀ g ∈ gs, g < 65536) (hl : gs.length = 8) :
    parseIPv6Bytes (text6 gs) = some (bytes gs) := by
  unfold text6
  by_cases hr : (zeroRun gs).2 = 0
  · rw [if_pos hr]
    exact parseIPv6Bytes_join hg hl
  have hs := split_zeroRun hr
  have hc := congrArg length hs
  rw [length_append, length_append, length_replicate, hl] at hc
  rw [if_neg hr, parseIPv6Bytes_gap (fun g h => hg g (mem_of_mem_take h))
    (fun g h => hg g (mem_of_mem_drop h)) hr hc.symm, ← hs]

/-! ## Zones and families -/

theorem splitZone_zoneText {s : List Char} (hs : '%' ∉ s) (zone : String) :
    splitZone (s ++ zoneText zone) = (s, if zone = "" then none else some zone.toList) := by
  have ha : ∀ c ∈ s, decide (c ≠ '%') = true := by
    intro c hc
    rw [decide_eq_true_eq]
    intro h
    exact hs (h ▸ hc)
  unfold splitZone zoneText
  by_cases hz : zone = ""
  · rw [if_pos hz, if_pos hz, append_nil, if_neg hs, takeWhile_eq_self_iff.mpr ha]
  · rw [if_neg hz, if_neg hz, takeWhile_append_of_pos ha, dropWhile_append_of_pos ha]
    simp

theorem parseIPv6_zoneText {s : List Char} (hs : '%' ∉ s) {bs : List Nat} (hb : parseIPv6Bytes s = some bs)
    (zone : String) : parseIPv6 (s ++ zoneText zone) = some (.v6 (BitVec.ofNat 128 (bigEndian bs)) zone) := by
  unfold parseIPv6
  rw [splitZone_zoneText hs]
  by_cases hz : zone = "" <;> simp [hz, hb]

theorem find_sign {digits : List Char} (hd : ∀ c ∈ digits, hexValue c ≠ none) {sign : Char}
    (hsi : sign = '.' ∨ sign = ':') (rest : List Char) :
    (digits ++ sign :: rest).find? (fun c => c = '.' || c = ':' || c = '%') = some sign := by
  have hn : digits.find? (fun c => c = '.' || c = ':' || c = '%') = none := by
    rw [find?_eq_none]
    intro c hc hs
    simp only [Bool.or_eq_true, decide_eq_true_eq] at hs
    rcases hs with (h | h) | h
    · exact hd c hc (by rw [h]; rfl)
    · exact hd c hc (by rw [h]; rfl)
    · exact hd c hc (by rw [h]; rfl)
  rw [find?_append, hn]
  rcases hsi with rfl | rfl <;> rfl

theorem octets_eq : ∃ a b c d, octets bits = [a, b, c, d] ∧ a < 256 ∧ b < 256 ∧ c < 256 ∧ d < 256 := by
  refine ⟨_, _, _, _, rfl, ?_, ?_, ?_, ?_⟩
  · exact Nat.mod_lt _ (by omega)
  · exact Nat.mod_lt _ (by omega)
  · exact Nat.mod_lt _ (by omega)
  · exact Nat.mod_lt _ (by omega)

theorem parseIPv4Fields_dot {cs : List Char} (hc : cs ≠ []) {fs : List Nat} (hf : fs.length ≠ 3)
    (val k : Nat) : parseIPv4Fields ('.' :: cs) fs val k false = parseIPv4Fields cs (fs ++ [val]) 0 0 true := by
  rw [parseIPv4Fields, if_neg (by decide), if_pos rfl, if_neg (by simpa using hc), if_neg hf]

theorem parseIPv4Fields_text4 : parseIPv4Fields (text4 bits) [] 0 0 true = some (octets bits) := by
  obtain ⟨a, b, c, d, ho, ha, hb, hc, hd⟩ := octets_eq bits
  have hl := parseIPv4Fields_decimal hd [] [a, b, c]
  rw [text4, ho, join_cons_cons, join_cons_cons, join_cons_cons, join_singleton]
  obtain ⟨k, h⟩ := parseIPv4Fields_decimal ha
    ('.' :: (decimal b ++ '.' :: (decimal c ++ '.' :: decimal d))) []
  rw [h, parseIPv4Fields_dot (by simp) (by simp)]
  obtain ⟨k, h⟩ := parseIPv4Fields_decimal hb ('.' :: (decimal c ++ '.' :: decimal d)) ([] ++ [a])
  rw [h, parseIPv4Fields_dot (by simp) (by simp)]
  obtain ⟨k, h⟩ := parseIPv4Fields_decimal hc ('.' :: decimal d) ([] ++ [a] ++ [b])
  rw [h, parseIPv4Fields_dot (decimal_ne_nil d) (by simp)]
  obtain ⟨k, h⟩ := hl
  rw [append_nil] at h
  exact h

theorem text4_head : ∃ a rest, a < 256 ∧ text4 bits = decimal a ++ '.' :: rest := by
  obtain ⟨a, b, c, d, ho, ha, -⟩ := octets_eq bits
  exact ⟨a, _, ha, by rw [text4, ho, join_cons_cons]⟩

/-- An IPv4 text that ends an IPv6 text after its `::`. -/
theorem parseGroups_text4 (fuel : Nat) {ip : List Nat} (hi : ip.length ≤ 12) (e : Nat) :
    parseGroups (fuel + 1) (text4 bits) ip (some e) = some ⟨ip ++ octets bits, some e, []⟩ := by
  have hr := parseIPv4Fields_text4 bits
  obtain ⟨a, rest, ha, ht⟩ := text4_head bits
  obtain ⟨k, hk, hg⟩ := @IsGroup.read ('.' :: rest) _ _ (decimal_isGroup ha) (by simp [Stops]; decide)
  rw [ht] at hr ⊢
  simp [parseGroups, hg, hk, hr, hi]

/-! ## Round trip -/

theorem groups_lt (bits : BitVec 128) : ∀ g ∈ groups bits, g < 65536 := fun _ h => digitsOf_lt (by omega) h

/-- A hex digit or a sign that separates numbers. -/
def IsAddrChar (c : Char) : Prop := hexValue c ≠ none ∨ c = '.' ∨ c = ':'

instance (c : Char) : Decidable (IsAddrChar c) :=
  inferInstanceAs (Decidable (hexValue c ≠ none ∨ c = '.' ∨ c = ':'))

theorem text4_chars : ∀ c ∈ text4 bits, IsAddrChar c := by
  intro c h
  rcases mem_join h with h | ⟨x, hx, h⟩
  · exact Or.inr (Or.inl h)
  · exact Or.inl ((decimal_isGroup (digitsOf_lt (by omega) hx)).chars c h)

theorem join_hex_chars (hg : ∀ g ∈ gs, g < 65536) : ∀ c ∈ join hex ':' gs, IsAddrChar c := by
  intro c h
  rcases mem_join h with h | ⟨x, hx, h⟩
  · exact Or.inr (Or.inr h)
  · exact Or.inl ((hex_isGroup (hg x hx)).chars c h)

theorem text6_chars (hgs : ∀ g ∈ gs, g < 65536) : ∀ c ∈ text6 gs, IsAddrChar c := by
  intro c h
  unfold text6 at h
  dsimp only at h
  split at h
  · exact join_hex_chars hgs c h
  rw [mem_append, mem_cons, mem_cons] at h
  rcases h with h | h | h | h
  · exact join_hex_chars (fun g hg => hgs g (mem_of_mem_take hg)) c h
  · exact Or.inr (Or.inr h)
  · exact Or.inr (Or.inr h)
  · exact join_hex_chars (fun g hg => hgs g (mem_of_mem_drop hg)) c h

theorem mapped_chars : ∀ c ∈ "::ffff:".toList ++ text4 bits, IsAddrChar c := by
  have hs : ∀ c ∈ "::ffff:".toList, IsAddrChar c := by
    have ha : ("::ffff:".toList.all fun c => IsAddrChar c) = true := by decide +kernel
    simpa only [all_eq_true, decide_eq_true_eq] using ha
  intro c h
  rcases mem_append.mp h with h | h
  · exact hs c h
  · exact text4_chars bits c h

theorem text_chars {a : Addr} (hz : ∀ bits zone, a = .v6 bits zone → zone = "") :
    ∀ c ∈ (text a).toList, IsAddrChar c := by
  intro c hc
  cases a with
  | v4 bits =>
    rw [text, String.toList_ofList] at hc
    exact text4_chars bits c hc
  | v6 bits zone =>
    rw [text, String.toList_ofList, hz bits zone rfl, zoneText, if_pos rfl, append_nil] at hc
    split at hc
    · exact mapped_chars _ c hc
    · exact text6_chars (groups_lt bits) c hc

theorem addrFromSlice_zone {s : Bytes} {a : Addr} (h : addrFromSlice s = some a) :
    ∀ bits zone, a = .v6 bits zone → zone = "" := by
  intro bits zone ha
  unfold addrFromSlice at h
  split at h
  · rw [ha] at h
    cases h
  split at h
  · rw [ha] at h
    cases h
    rfl
  · cases h

theorem percent_notMem {s : List Char} (h : ∀ c ∈ s, IsAddrChar c) : '%' ∉ s :=
  fun hm => absurd (h _ hm) (by decide)

theorem join_hex_colon (hgs : ∀ g ∈ gs, g < 65536) (rest : List Char) :
    ∃ digits tail, (∀ c ∈ digits, hexValue c ≠ none) ∧ join hex ':' gs ++ ':' :: rest = digits ++ ':' :: tail := by
  cases gs with
  | nil => exact ⟨[], rest, by simp, rfl⟩
  | cons g gs =>
    have hg := (hex_isGroup (hgs g mem_cons_self)).chars
    cases gs with
    | nil => exact ⟨hex g, rest, hg, by rw [join_singleton]⟩
    | cons y ys => exact ⟨hex g, _, hg, by rw [join_cons_cons, append_assoc, cons_append]⟩

theorem text6_colon (hg : ∀ g ∈ gs, g < 65536) (hl : gs.length = 8) :
    ∃ digits tail, (∀ c ∈ digits, hexValue c ≠ none) ∧ text6 gs = digits ++ ':' :: tail := by
  unfold text6
  dsimp only
  split
  · match gs, hl with
    | g :: y :: ys, _ => exact ⟨hex g, _, (hex_isGroup (hg g mem_cons_self)).chars, join_cons_cons _ _ _ _ _⟩
  · exact join_hex_colon (fun g h => hg g (mem_of_mem_take h)) _

theorem parseIPv6Bytes_mapped :
    parseIPv6Bytes ("::ffff:".toList ++ text4 bits) = some (replicate 10 0 ++ [255, 255] ++ octets bits) := by
  obtain ⟨x, xs, ht⟩ := exists_cons_of_ne_nil (show text4 bits ≠ [] by
    obtain ⟨a, rest, -, h⟩ := text4_head bits
    simp [h])
  have hc : x ≠ ':' := by
    obtain ⟨a, rest, ha, h⟩ := text4_head bits
    obtain ⟨y, ys, hd⟩ := exists_cons_of_ne_nil (decimal_ne_nil a)
    rw [ht, hd, cons_append, cons.injEq] at h
    intro hx
    exact (decimal_isGroup ha).chars y (by simp [hd]) (by rw [← h.1, hx]; rfl)
  have hr : parseGroups 8 ("ffff:".toList ++ text4 bits) [] (some 0) =
      some ⟨[255, 255] ++ octets bits, some 0, []⟩ := by
    have hm : "ffff:".toList ++ text4 bits = hex 0xffff ++ ':' :: text4 bits := by
      rfl
    rw [hm, ht, parseGroups_next (by omega) hc, ← ht, parseGroups_text4 bits 6 (by simp) 0]
    rfl
  have hg : "::ffff:".toList ++ text4 bits = ':' :: ':' :: ("ffff:".toList ++ text4 bits) := by
    rfl
  rw [hg, parseIPv6Bytes, hr]
  rfl

/-- **Round trip.** The text of an address is read as that address. -/
theorem parseAddr_text (a : Addr) : parseAddr (text a) = some a := by
  unfold parseAddr
  cases a with
  | v4 bits =>
    obtain ⟨a, rest, ha, ht⟩ := text4_head bits
    have hs := find_sign ((decimal_isGroup ha).chars) (Or.inl rfl) rest
    have hp : parseIPv4 (text4 bits) = some (.v4 bits) := by
      rw [parseIPv4, parseIPv4Fields_text4, Option.map_some, bigEndian_octets4, BitVec.ofNat_toNat, BitVec.setWidth_eq]
    rw [← ht] at hs
    simp only [text, String.toList_ofList, hs]
    exact hp
  | v6 bits zone =>
    simp only [text, String.toList_ofList]
    by_cases hm : is4In6 bits = true
    · have hv : BitVec.ofNat 128 (bigEndian (replicate 10 0 ++ [255, 255] ++ octets (bits.setWidth 32))) = bits := by
        have hb : bits.toNat / 2 ^ 32 = 0xffff := by simpa [is4In6] using hm
        have hlo : bigEndian (replicate 10 0 ++ [255, 255]) = 0xffff := by decide
        have hl : (octets (bits.setWidth 32)).length = 4 := length_digitsOf _ _ _
        rw [bigEndian_append, hl, bigEndian_octets4, BitVec.toNat_setWidth]
        apply BitVec.eq_of_toNat_eq
        rw [BitVec.toNat_ofNat]
        omega
      rw [if_pos hm, parseIPv6_zoneText (percent_notMem (mapped_chars _)) (parseIPv6Bytes_mapped _), hv]
      rfl
    · have hg := groups_lt bits
      have hl : (groups bits).length = 8 := length_digitsOf _ _ _
      obtain ⟨digits, tail, hd, ht⟩ := text6_colon hg hl
      have hs := find_sign hd (Or.inr rfl) (tail ++ zoneText zone)
      rw [← cons_append, ← append_assoc, ← ht] at hs
      rw [if_neg hm, hs]
      simp only
      rw [parseIPv6_zoneText (percent_notMem (text6_chars hg)) (parseIPv6Bytes_text6 hg hl), bigEndian_groups]

theorem text_inj {a b : Addr} (h : text a = text b) : a = b := by
  have ha := parseAddr_text a
  rw [h, parseAddr_text b] at ha
  exact (Option.some.inj ha).symm

end Mossward.L1.AddrText
