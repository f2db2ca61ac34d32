import Mathlib.Data.List.DropRight
import Mathlib.Data.String.Basic
import Mossward.L1Encoding.NetAddr

/-!
# Product names, versions and asset names

How an observed product finds its vendor and product name, when a version is
in the range of an affected one, and which target names identify an asset.
`internal/intelligence/version.go` and the name rules of `internal/store/asset.go`.

A text is a list of characters. `lower` is `unicode.ToLower` outside ASCII.

Result: `compareVersions_swap`.
-/
namespace Mossward.L1.Names

open L1.NetAddr

/-! ## Strings -/

/-- `unicode.IsSpace`. -/
def isSpace (c : Char) : Bool :=
  c.toNat ∈ [0x09, 0x0a, 0x0b, 0x0c, 0x0d, 0x20, 0x85, 0xa0, 0x1680, 0x2028, 0x2029, 0x202f, 0x205f, 0x3000] ||
    (0x2000 ≤ c.toNat && c.toNat ≤ 0x200a)

def trimSpace (s : List Char) : List Char := (s.dropWhile isSpace).rdropWhile isSpace

/-- `strings.Fields`: the maximal runs of characters that are not spaces. -/
def fields (s : List Char) : List (List Char) := (s.splitOnP isSpace).filter (· ≠ [])

section
variable (lower : Char → Char)

def toLower (s : List Char) : List Char :=
  s.map fun c => if c.toNat < 128 then c.toLower else lower c

/-! ## Products -/

/-- Mirrors `productAliases`, `internal/intelligence/version.go:9-24`. -/
def productAliases : List (String × String × String) :=
  [("nginx", "nginx", "nginx"),
   ("openssh", "openbsd", "openssh"),
   ("apache", "apache", "http_server"),
   ("apache http server", "apache", "http_server"),
   ("httpd", "apache", "http_server"),
   ("redis", "redis", "redis"),
   ("postgresql", "postgresql", "postgresql"),
   ("microsoft-iis", "microsoft", "internet_information_services"),
   ("openssl", "openssl", "openssl"),
   ("curl", "haxx", "curl"),
   ("openssh-client", "openbsd", "openssh"),
   ("openssh-server", "openbsd", "openssh"),
   ("apache2", "apache", "http_server"),
   ("redis-server", "redis", "redis")]

/-- Mirrors `internal/intelligence/version.go:26-32`: the vendor and the
product name. -/
def normalizeProduct (observed : String) : Option (String × String) :=
  let value := toLower lower (trimSpace observed.toList)
  let value := value.map fun c => if c = '_' then ' ' else c
  productAliases.lookup (String.ofList (List.intercalate [' '] (fields value)))

/-! ## Versions -/

/-- A run of digits or a run of other characters. A missing part is the empty
text. -/
inductive VersionPart
  | number (n : Nat)
  | text (s : String)
deriving DecidableEq, Repr

def VersionPart.absent : VersionPart := .text ""

def cleanVersion (value : String) : List Char :=
  let value := toLower lower (trimSpace value.toList)
  if value.head? = some 'v' then value.tail else value

/-- `strconv.ParseInt`, which stops at the largest `int64`. -/
def parseNumber (token : List Char) : Nat :=
  min (2 ^ 63 - 1) (token.foldl (fun acc c => acc * 10 + (c.toNat - '0'.toNat)) 0)

/-- Mirrors `internal/intelligence/version.go:120-139`. -/
def versionParts (value : List Char) : List VersionPart :=
  (value.splitBy fun a b => a.isDigit == b.isDigit).filterMap fun token =>
    if token.head?.any Char.isDigit then some (.number (parseNumber token))
    else if token = ['.'] || token = ['-'] || token = ['_'] then none
    else some (.text (String.ofList token))

def trimTrailingZeroParts (parts : List VersionPart) : List VersionPart :=
  parts.rdropWhile (· = .number 0)

/-- One round of the comparison loop; a number is larger than a text. -/
def comparePart : VersionPart → VersionPart → Ordering
  | .number m, .number n => if m < n then .lt else if n < m then .gt else .eq
  | .number _, .text _ => .gt
  | .text _, .number _ => .lt
  | .text s, .text t => if s < t then .lt else if t < s then .gt else .eq

def compareParts : Nat → List VersionPart → List VersionPart → Ordering
  | 0, _, _ => .eq
  | n + 1, as, bs =>
    match comparePart (as.headD .absent) (bs.headD .absent) with
    | .eq => compareParts n as.tail bs.tail
    | o => o

/-- Mirrors `internal/intelligence/version.go:57-95`. -/
def compareVersions (left right : String) : Ordering :=
  let a := trimTrailingZeroParts (versionParts (cleanVersion lower left))
  let b := trimTrailingZeroParts (versionParts (cleanVersion lower right))
  compareParts (max a.length b.length) a b

/-- Mirrors `internal/intelligence/version.go:34-55`; the observed version is
cleaned here and once more by each comparison. -/
def versionAffected (observed affectedVersion startIncluding startExcluding endIncluding endExcluding : String) :
    Bool :=
  let observed := String.ofList (cleanVersion lower observed)
  if observed = "" then false
  else if affectedVersion ≠ "" && affectedVersion ≠ "*" && affectedVersion ≠ "-" &&
      compareVersions lower observed affectedVersion ≠ .eq then false
  else if startIncluding ≠ "" && compareVersions lower observed startIncluding = .lt then false
  else if startExcluding ≠ "" && compareVersions lower observed startExcluding ≠ .gt then false
  else if endIncluding ≠ "" && compareVersions lower observed endIncluding = .gt then false
  else if endExcluding ≠ "" && compareVersions lower observed endExcluding ≠ .lt then false
  else true

theorem comparePart_swap (a b : VersionPart) : (comparePart a b).swap = comparePart b a := by
  cases a with
  | number m =>
    cases b with
    | number n =>
      simp only [comparePart]
      rcases lt_trichotomy m n with h | rfl | h
      · simp [h, lt_asymm h]
      · simp
      · simp [h, lt_asymm h]
    | text t => rfl
  | text s =>
    cases b with
    | number n => rfl
    | text t =>
      simp only [comparePart]
      rcases lt_trichotomy s t with h | rfl | h
      · simp [h, lt_asymm h]
      · simp
      · simp [h, lt_asymm h]

theorem compareParts_swap (n : Nat) (as bs : List VersionPart) :
    (compareParts n as bs).swap = compareParts n bs as := by
  induction n generalizing as bs with
  | zero => rfl
  | succ n ih =>
    simp only [compareParts]
    rw [← comparePart_swap (as.headD .absent) (bs.headD .absent)]
    cases comparePart (as.headD .absent) (bs.headD .absent) with
    | lt => rfl
    | gt => rfl
    | eq => exact ih as.tail bs.tail

/-- **Comparison is antisymmetric.** Swapping the versions swaps the answer. -/
theorem compareVersions_swap (left right : String) :
    (compareVersions lower left right).swap = compareVersions lower right left := by
  unfold compareVersions
  rw [compareParts_swap, max_comm]

/-! ## Asset names -/

/-- Mirrors `internal/store/asset.go:128-138`. -/
def validDNSLabel (label : List Char) : Bool :=
  label ≠ [] && label.length ≤ 63 && label.head? ≠ some '-' && label.getLast? ≠ some '-' &&
    label.all fun c => ('a' ≤ c && c ≤ 'z') || c.isDigit || c = '-'

/-- Mirrors `internal/store/asset.go:108-126`: the empty text when the target's
name does not identify an asset. -/
def normalizedAssetName (value : String) : String :=
  let name := toLower lower (trimSpace value.toList)
  let name := if name.getLast? = some '.' then name.dropLast else name
  if name = [] || '.' ∉ name then ""
  else if (parseAddr (String.ofList name)).isSome then ""
  else if (parsePrefix (String.ofList name)).isSome then ""
  else if (name.splitOn '.').all validDNSLabel then String.ofList name
  else ""

end

end Mossward.L1.Names
