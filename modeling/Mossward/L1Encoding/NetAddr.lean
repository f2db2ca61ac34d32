import Mossward.Core.Text

/-!
# Network addresses and their texts

`netip.ParseAddr` and `netip.ParsePrefix` as the standard library has them,
character by character. One address has many texts: an IPv6 group may be
written with capital letters or leading zeros, and `::` may stand for any run
of zero groups. Validation in the source compares parsed addresses, while
tables keep the texts.
-/
namespace Mossward.L1.NetAddr

/-- `netip.Addr`; a parsed address is never the zero `Addr`. IPv4-mapped
addresses are IPv6 addresses. -/
inductive Addr
  | v4 (bits : BitVec 32)
  | v6 (bits : BitVec 128) (zone : String)
deriving DecidableEq, Repr

instance lawfulBEqAddrPort : LawfulBEq (Addr × Int) := inferInstance

instance lawfulBEqChars : LawfulBEq (List Char) := inferInstance

/-- The bytes as one number, most significant first. -/
def bigEndian (bytes : List Nat) : Nat := bytes.foldl (fun acc b => acc * 256 + b) 0

/-! ## IPv4 -/

/-- `parseIPv4Fields`: the fields read so far, the value and length of the
current one, and whether a dot may not stand here. -/
def parseIPv4Fields : List Char → List Nat → Nat → Nat → Bool → Option (List Nat)
  | [], fields, val, _, _ => if fields.length < 3 then none else some (fields ++ [val])
  | c :: cs, fields, val, digLen, atStart =>
    if c.isDigit then
      if digLen = 1 && val = 0 then none   -- leading zero
      else if val * 10 + (c.toNat - '0'.toNat) > 255 then none
      else parseIPv4Fields cs fields (val * 10 + (c.toNat - '0'.toNat)) (digLen + 1) false
    else if c = '.' then
      if atStart || cs.isEmpty then none
      else if fields.length = 3 then none
      else parseIPv4Fields cs (fields ++ [val]) 0 0 true
    else none

def parseIPv4 (s : List Char) : Option Addr :=
  (parseIPv4Fields s [] 0 0 true).map fun fields => .v4 (BitVec.ofNat 32 (bigEndian fields))

/-! ## IPv6 -/

/-- A hex group: its value, its length and what follows it. More than four
digits are refused. -/
def hexGroup : List Char → Nat → Nat → Option (Nat × Nat × List Char)
  | [], acc, off => some (acc, off, [])
  | c :: cs, acc, off =>
    match hexValue c with
    | none => some (acc, off, c :: cs)
    | some d =>
      if off > 3 then none
      else if acc * 16 + d > 65535 then none
      else hexGroup cs (acc * 16 + d) (off + 1)

/-- What the loop of `parseIPv6` has read: the bytes, where the `::` stood, and
the rest of the text. -/
structure Groups where
  ip : List Nat
  ellipsis : Option Nat
  rest : List Char

/-- The loop over the groups; `fuel` is the number of groups that still fit. -/
def parseGroups : Nat → List Char → List Nat → Option Nat → Option Groups
  | 0, s, ip, ellipsis => some ⟨ip, ellipsis, s⟩
  | fuel + 1, s, ip, ellipsis =>
    match hexGroup s 0 0 with
    | none => none
    | some (acc, off, s') =>
      if off = 0 then none
      else if s'.head? = some '.' then
        if ellipsis.isNone && ip.length ≠ 12 then none
        else if ip.length + 4 > 16 then none
        else (parseIPv4Fields s [] 0 0 true).map fun fields => ⟨ip ++ fields, ellipsis, []⟩
      else
        let ip := ip ++ [acc / 256, acc % 256]
        match s' with
        | [] => some ⟨ip, ellipsis, []⟩
        | ':' :: ':' :: s'' =>
          if ellipsis.isSome then none
          else if s''.isEmpty then some ⟨ip, some ip.length, []⟩
          else parseGroups fuel s'' ip (some ip.length)
        | ':' :: c :: s'' => parseGroups fuel (c :: s'') ip ellipsis
        | _ => none

/-- `::` stands for the missing zero bytes, at least one group of them. -/
def expand (g : Groups) : Option (List Nat) :=
  if g.rest ≠ [] then none
  else if g.ip.length < 16 then
    g.ellipsis.map fun e => g.ip.take e ++ List.replicate (16 - g.ip.length) 0 ++ g.ip.drop e
  else if g.ellipsis.isSome then none
  else some g.ip

def parseIPv6Bytes (s : List Char) : Option (List Nat) :=
  match s with
  | ':' :: ':' :: s' =>
    if s'.isEmpty then some (List.replicate 16 0)
    else (parseGroups 8 s' [] (some 0)).bind expand
  | s => (parseGroups 8 s [] none).bind expand

/-- The text before the first `%`, and the zone after it. -/
def splitZone (s : List Char) : List Char × Option (List Char) :=
  (s.takeWhile (· ≠ '%'), if '%' ∈ s then some ((s.dropWhile (· ≠ '%')).drop 1) else none)

def parseIPv6 (s : List Char) : Option Addr :=
  let (s, zone) := splitZone s
  if zone = some [] then none
  else (parseIPv6Bytes s).map fun bytes =>
    .v6 (BitVec.ofNat 128 (bigEndian bytes)) (String.ofList (zone.getD []))

/-! ## Addresses and prefixes -/

/-- `netip.ParseAddr`: the first dot, colon or percent sign decides. -/
def parseAddr (text : String) : Option Addr :=
  let s := text.toList
  match s.find? (fun c => c = '.' || c = ':' || c = '%') with
  | some '.' => parseIPv4 s
  | some ':' => parseIPv6 s
  | _ => none

structure Prefix where
  addr : Addr
  bits : Nat
deriving DecidableEq, Repr

/-- `strconv.Atoi` of digits, without sign or leading zero. -/
def parseBits (s : List Char) : Option Nat :=
  match s with
  | [] => none
  | c :: cs =>
    if !s.all Char.isDigit || (c = '0' && !cs.isEmpty) then none
    else some (s.foldl (fun acc d => acc * 10 + (d.toNat - '0'.toNat)) 0)

/-- `netip.ParsePrefix`: split at the last slash. -/
def parsePrefix (text : String) : Option Prefix :=
  let s := text.toList
  if '/' ∈ s then
    let bitsText := (s.reverse.takeWhile (· ≠ '/')).reverse
    let addrText := s.take (s.length - bitsText.length - 1)
    match parseAddr (String.ofList addrText), parseBits bitsText with
    | some (.v4 b), some n => if n ≤ 32 then some ⟨.v4 b, n⟩ else none
    | some (.v6 b zone), some n => if zone = "" && n ≤ 128 then some ⟨.v6 b zone, n⟩ else none
    | _, _ => none
  else none

/-- `Prefix.Contains`: the same family, no zone, and the same leading bits. -/
def Prefix.contains (p : Prefix) : Addr → Bool
  | .v4 b =>
    match p.addr with
    | .v4 pb => (b ^^^ pb) >>> (32 - p.bits) = 0
    | .v6 _ _ => false
  | .v6 b zone =>
    match p.addr with
    | .v4 _ => false
    | .v6 pb _ => zone = "" && (b ^^^ pb) >>> (128 - p.bits) = 0

end Mossward.L1.NetAddr
