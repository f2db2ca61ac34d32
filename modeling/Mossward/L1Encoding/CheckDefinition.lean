import Mossward.Core.JsonReader
import Mossward.L1Encoding.JobJson
import Mossward.L1Encoding.Names

/-!
# Declarative checks (`internal/checkdefinition`)

A check has a specification, which is kept as the text it came in. The
signature is over the check with the canonical form of that text
(`canonicalSpec`). What is evaluated is the text itself, read into a record for
HTTP, TLS or SSH. The two readings treat names that occur twice, or twice up to
case, differently.

Sizes are those of UTF-8 bytes. Which cipher suites exist and `unicode.ToLower`
outside ASCII are parameters. The loop over the header values goes over a Go
map; here it is the order of the names.

Result: `signature_fixes_spec`.
-/
namespace Mossward.L1.CheckDefinition

open Json Value Option
open Table (require require_eq_ok bind_eq_ok)
open L1.Names (trimSpace toLower)
open L1.JobJson (maxNestingDepth)

def schemaVersion : Int := 1
def maxSpecBytes : Nat := 64 * 1024
def maxTitleBytes : Nat := 160

structure Check where
  schemaVersion : Int
  id : String
  version : String
  kind : String
  title : String
  description : String
  severity : String
  executionClass : String
  spec : String
deriving DecidableEq

inductive CheckError
  | schemaVersion
  | identifier
  | version
  | kind
  | severity
  | executionClass
  | title
  | specLength
  | specJson            -- not one JSON value
  | specObject
  | otherKind           -- an evaluator of another kind
  | decode              -- an unknown field or a value of another type
  | noRule
  | tooManyRules
  | remediation
  | header
  | headerValueRule
  | headerValue
  | status
  | minimumVersion
  | certificateDays
  | tooManyCiphers
  | cipher
  | softwareLists
  | sshValue (label : String)
deriving DecidableEq

/-! ## Patterns -/

def isLower (c : Char) : Bool := 'a' ≤ c && c ≤ 'z'

def isUpper (c : Char) : Bool := 'A' ≤ c && c ≤ 'Z'

/-- `identifierPattern`: at least two words of small letters and digits with a
dot, an underscore or a hyphen between them, the first one with a letter at its
start. -/
def isIdentifier (s : String) : Bool :=
  let words := s.toList.splitOnP fun c => c = '.' || c = '_' || c = '-'
  1 < words.length && words.all (fun word => word ≠ [] && word.all fun c => isLower c || c.isDigit) &&
    (words.head?.bind List.head?).any isLower

/-- A number without leading zeros. -/
def isCoreNumber (part : List Char) : Bool :=
  part ≠ [] && part.all Char.isDigit && (part.head? ≠ some '0' || part = ['0'])

/-- What may follow a hyphen or a plus sign. -/
def isSuffix (s : List Char) : Bool :=
  s ≠ [] && s.all fun c => c.isDigit || isUpper c || isLower c || c = '.' || c = '-'

/-- The text up to a separator, and what follows it if it is there:
`strings.SplitN` with at most two parts. -/
def cut (separator : Char) (s : List Char) : List Char × Option (List Char) :=
  (s.takeWhile (· ≠ separator), (s.dropWhile (· ≠ separator)).tail?)

/-- `versionPattern`: three numbers, and possibly a prerelease behind a hyphen
and a build behind a plus sign. -/
def isVersion (s : String) : Bool :=
  let (rest, build) := cut '+' s.toList
  let (core, prerelease) := cut '-' rest
  (core.splitOn '.').length = 3 && (core.splitOn '.').all isCoreNumber && prerelease.all isSuffix && build.all isSuffix

/-! ## Checks -/

/-- The value of a specification; nothing may follow it. -/
def specValue (spec : String) : Option Value := parse maxNestingDepth spec.toList

/-- Mirrors `format.go:114-129`. -/
def canonicalSpec (spec : String) : Option String :=
  (specValue spec).map fun v => String.ofList v.canonical.text

def isKind (kind : String) : Bool := kind = "http" || kind = "ssh" || kind = "tls"

def isSeverity (severity : String) : Bool :=
  severity = "info" || severity = "low" || severity = "medium" || severity = "high" || severity = "critical"

def isExecutionClass (c : String) : Bool := c = "" || c = "observational" || c = "intrusive"

/-- Mirrors `format.go:69-103`. -/
def validate (check : Check) : Except CheckError Unit := do
  require (check.schemaVersion = schemaVersion) .schemaVersion
  require (isIdentifier check.id) .identifier
  require (isVersion check.version) .version
  require (isKind check.kind) .kind
  require (isSeverity check.severity) .severity
  require (isExecutionClass check.executionClass) .executionClass
  let title := String.ofList (trimSpace check.title.toList)
  require (title ≠ "" ∧ title.utf8ByteSize ≤ maxTitleBytes) .title
  require (check.spec.utf8ByteSize ≠ 0 ∧ check.spec.utf8ByteSize ≤ maxSpecBytes) .specLength
  match canonicalSpec check.spec with
  | none => .error .specJson
  | some canonical => require (canonical.toList.head? = some '\x7b') .specObject

/-- The fields of a check in the order of its struct. -/
def checkFields (check : Check) (spec : Value) : List Field :=
  [⟨"schema_version", .num check.schemaVersion, false⟩, ⟨"id", .str check.id, false⟩,
    ⟨"version", .str check.version, false⟩, ⟨"kind", .str check.kind, false⟩, ⟨"title", .str check.title, false⟩,
    ⟨"description", .str check.description, check.description = ""⟩, ⟨"severity", .str check.severity, false⟩,
    ⟨"execution_class", .str check.executionClass, check.executionClass = ""⟩, ⟨"spec", spec, false⟩]

def signatureContext : String := "mossward.declarative-check.v1"

def signingPayload (check : Check) (spec : Value) : Value :=
  .obj [("context", .str signatureContext), ("check", .obj (members (checkFields check spec)))]

/-- The bytes that are signed. Mirrors `signature.go:71-85`. -/
def signaturePayload (check : Check) : Except CheckError String := do
  validate check
  match specValue check.spec with
  | none => .error .specJson
  | some v => .ok (String.ofList (signingPayload check v.canonical).text)

/-! ## Specifications -/

structure Env where
  lower : Char → Char
  cipherKnown : String → Bool

/-- The decoders of the three kinds, `http.go:39-59`, `tls.go:48-68` and
`ssh.go:35-55`: they differ in the kind, the record and its check. -/
def decodeSpec {σ : Type} (kind : String) (fields : List (RecordField σ)) (zero : σ)
    (validateSpec : σ → Except CheckError Unit) (check : Check) : Except CheckError σ := do
  validate check
  require (check.kind = kind) .otherKind
  match (specValue check.spec).bind (readRecord fields zero) with
  | none => .error .decode
  | some spec => do
    validateSpec spec
    return spec

/-- The loop over a list of rules: each one is valid, and no two are the same in
their normal form. -/
def distinctRules {α β : Type} [DecidableEq β] (normal : α → β) (valid : α → Bool) (error : CheckError) :
    List β → List α → Except CheckError Unit
  | _, [] => .ok ()
  | seen, rule :: rules =>
    if valid rule = false ∨ normal rule ∈ seen then .error error
    else distinctRules normal valid error (normal rule :: seen) rules

def blank (s : String) : Bool := trimSpace s.toList = []

def readStrings : Reader (Slice String) := readSlice "" readText

/-! ### HTTP -/

structure HTTPSpec where
  requireHTTPS : Bool
  requiredHeaders : Slice String
  forbiddenHeaders : Slice String
  headerContains : Option (SortedMap String (Slice String))
  allowedStatusCodes : Slice Int
  remediation : String
deriving DecidableEq

def HTTPSpec.zero : HTTPSpec := ⟨false, .nil, .nil, none, .nil, ""⟩

def httpFields : List (RecordField HTTPSpec) :=
  [fieldOf .zero "require_https" (·.requireHTTPS) (fun s x => { s with requireHTTPS := x }) readBool,
    fieldOf .zero "required_headers" (·.requiredHeaders) (fun s x => { s with requiredHeaders := x }) readStrings,
    fieldOf .zero "forbidden_headers" (·.forbiddenHeaders) (fun s x => { s with forbiddenHeaders := x }) readStrings,
    fieldOf .zero "header_contains" (·.headerContains) (fun s x => { s with headerContains := x })
      (readMap .nil readStrings),
    fieldOf .zero "allowed_status_codes" (·.allowedStatusCodes) (fun s x => { s with allowedStatusCodes := x })
      (readSlice 0 readInt),
    fieldOf .zero "remediation" (·.remediation) (fun s x => { s with remediation := x }) readText]

def maxHTTPRules : Nat := 32
def maxHeaderValueSize : Nat := 512

def isTokenChar (c : Char) : Bool :=
  c ∈ "!#$%&'*+-.^_`|~".toList || c.isDigit || isUpper c || isLower c

/-- `http.CanonicalHeaderKey`: what is no header name stays as it is. -/
def capitalize : Bool → List Char → List Char
  | _, [] => []
  | first, c :: cs => (if first then c.toUpper else c.toLower) :: capitalize (c = '-') cs

def canonicalHeaderKey (name : List Char) : List Char :=
  if name.all isTokenChar then capitalize true name else name

/-- Mirrors `http.go:153-164`. -/
def validHeaderName (name : List Char) : Bool :=
  name ≠ [] && (String.ofList name).utf8ByteSize ≤ 128 && name.all isTokenChar

section
variable (env : Env)

def headerKey (name : String) : List Char := canonicalHeaderKey (trimSpace name.toList)

def normalHeader (name : String) : List Char := toLower env.lower (headerKey name)

/-- The loop over the header values, `http.go:95-109`. -/
def validateHeaderValues : List (List Char) → List (String × Slice String) → Except CheckError Unit
  | _, [] => .ok ()
  | seen, (name, values) :: entries =>
    if validHeaderName (headerKey name) = false ∨ values.items = [] ∨ normalHeader env name ∈ seen then
      .error .headerValueRule
    else if values.items.any fun value => blank value || maxHeaderValueSize < value.utf8ByteSize then
      .error .headerValue
    else validateHeaderValues (normalHeader env name :: seen) entries

def headerEntries (spec : HTTPSpec) : List (String × Slice String) :=
  (spec.headerContains.getD .empty).entries

/-- Mirrors `http.go:73-121`. -/
def validateHTTPSpec (spec : HTTPSpec) : Except CheckError Unit := do
  let ruleCount := spec.requiredHeaders.items.length + spec.forbiddenHeaders.items.length +
    spec.allowedStatusCodes.items.length + if spec.requireHTTPS then 1 else 0
  require (ruleCount ≠ 0) .noRule
  require (ruleCount ≤ maxHTTPRules) .tooManyRules
  require (!blank spec.remediation) .remediation
  distinctRules (normalHeader env) (fun name => validHeaderName (headerKey name)) .header []
    (spec.requiredHeaders.items ++ spec.forbiddenHeaders.items)
  validateHeaderValues env [] (headerEntries spec)
  require (ruleCount + ((headerEntries spec).map fun e => e.2.items.length).sum ≤ maxHTTPRules) .tooManyRules
  distinctRules id (fun status : Int => 100 ≤ status && status ≤ 599) .status [] spec.allowedStatusCodes.items

def decodeHTTPSpec (check : Check) : Except CheckError HTTPSpec :=
  decodeSpec "http" httpFields .zero (validateHTTPSpec env) check

end

/-! ### TLS -/

structure TLSSpec where
  minimumVersion : String
  disallowLegacyProtocols : Bool
  disallowedCipherSuites : Slice String
  requireCurrentCertificate : Bool
  requireHostnameMatch : Bool
  minimumCertificateDaysLeft : Option Int
  remediation : String
deriving DecidableEq

def TLSSpec.zero : TLSSpec := ⟨"", false, .nil, false, false, none, ""⟩

def tlsFields : List (RecordField TLSSpec) :=
  [fieldOf .zero "minimum_version" (·.minimumVersion) (fun s x => { s with minimumVersion := x }) readText,
    fieldOf .zero "disallow_legacy_protocols" (·.disallowLegacyProtocols)
      (fun s x => { s with disallowLegacyProtocols := x }) readBool,
    fieldOf .zero "disallowed_cipher_suites" (·.disallowedCipherSuites)
      (fun s x => { s with disallowedCipherSuites := x }) readStrings,
    fieldOf .zero "require_current_certificate" (·.requireCurrentCertificate)
      (fun s x => { s with requireCurrentCertificate := x }) readBool,
    fieldOf .zero "require_hostname_match" (·.requireHostnameMatch)
      (fun s x => { s with requireHostnameMatch := x }) readBool,
    fieldOf .zero "minimum_certificate_days_left" (·.minimumCertificateDaysLeft)
      (fun s x => { s with minimumCertificateDaysLeft := x }) (readPointer 0 readInt),
    fieldOf .zero "remediation" (·.remediation) (fun s x => { s with remediation := x }) readText]

def maxTLSCipherRules : Nat := 32

def tlsVersions : List String := ["TLS1.0", "TLS1.1", "TLS1.2", "TLS1.3"]

/-- Mirrors `tls.go:82-118`. -/
def validateTLSSpec (env : Env) (spec : TLSSpec) : Except CheckError Unit := do
  let rules := spec.disallowedCipherSuites.items.length + (if spec.minimumVersion ≠ "" then 1 else 0) +
    ([spec.disallowLegacyProtocols, spec.requireCurrentCertificate, spec.requireHostnameMatch].filter id).length +
    if spec.minimumCertificateDaysLeft ≠ none then 1 else 0
  require (spec.minimumVersion = "" ∨ spec.minimumVersion ∈ tlsVersions) .minimumVersion
  require (spec.minimumCertificateDaysLeft.all fun days => 0 ≤ days && days ≤ 3650) .certificateDays
  require (rules ≠ 0) .noRule
  require (spec.disallowedCipherSuites.items.length ≤ maxTLSCipherRules) .tooManyCiphers
  distinctRules id (fun cipher : String => "TLS_".toList.isPrefixOf cipher.toList && env.cipherKnown cipher) .cipher []
    spec.disallowedCipherSuites.items
  require (!blank spec.remediation) .remediation

def decodeTLSSpec (env : Env) (check : Check) : Except CheckError TLSSpec :=
  decodeSpec "tls" tlsFields .zero (validateTLSSpec env) check

/-! ### SSH -/

structure SSHSpec where
  allowedProtocolVersions : Slice String
  allowedSoftware : Slice String
  disallowedSoftware : Slice String
  forbiddenCommentTerms : Slice String
  forbidVersionDisclosure : Bool
  remediation : String
deriving DecidableEq

def SSHSpec.zero : SSHSpec := ⟨.nil, .nil, .nil, .nil, false, ""⟩

def sshFields : List (RecordField SSHSpec) :=
  [fieldOf .zero "allowed_protocol_versions" (·.allowedProtocolVersions)
      (fun s x => { s with allowedProtocolVersions := x }) readStrings,
    fieldOf .zero "allowed_software" (·.allowedSoftware) (fun s x => { s with allowedSoftware := x }) readStrings,
    fieldOf .zero "disallowed_software" (·.disallowedSoftware)
      (fun s x => { s with disallowedSoftware := x }) readStrings,
    fieldOf .zero "forbidden_comment_terms" (·.forbiddenCommentTerms)
      (fun s x => { s with forbiddenCommentTerms := x }) readStrings,
    fieldOf .zero "forbid_version_disclosure" (·.forbidVersionDisclosure)
      (fun s x => { s with forbidVersionDisclosure := x }) readBool,
    fieldOf .zero "remediation" (·.remediation) (fun s x => { s with remediation := x }) readText]

def maxSSHListRules : Nat := 32

section
variable (env : Env)

def normalValue (value : String) : String := String.ofList (toLower env.lower (trimSpace value.toList))

/-- Mirrors `ssh.go:101-111`. -/
def validateSSHValues (values : Slice String) (label : String) (limit : Nat) : Except CheckError Unit :=
  distinctRules (normalValue env)
    (fun value => normalValue env value ≠ "" && (normalValue env value).utf8ByteSize ≤ limit)
    (.sshValue label) [] values.items

/-- Mirrors `ssh.go:69-99`. -/
def validateSSHSpec (spec : SSHSpec) : Except CheckError Unit := do
  let ruleCount := spec.allowedProtocolVersions.items.length + spec.allowedSoftware.items.length +
    spec.disallowedSoftware.items.length + spec.forbiddenCommentTerms.items.length +
    if spec.forbidVersionDisclosure then 1 else 0
  require (ruleCount ≠ 0) .noRule
  require (ruleCount ≤ maxSSHListRules) .tooManyRules
  require (spec.allowedSoftware.items = [] ∨ spec.disallowedSoftware.items = []) .softwareLists
  validateSSHValues env spec.allowedProtocolVersions "protocol version" 16
  validateSSHValues env spec.allowedSoftware "allowed software" 128
  validateSSHValues env spec.disallowedSoftware "disallowed software" 128
  validateSSHValues env spec.forbiddenCommentTerms "forbidden comment term" 128
  require (!blank spec.remediation) .remediation

def decodeSSHSpec (check : Check) : Except CheckError SSHSpec :=
  decodeSpec "ssh" sshFields .zero (validateSSHSpec env) check

end

/-! ## The records read canonical texts -/

theorem readStrings_agrees : readStrings.Agrees := (readSlice_invariant readText_invariant).agrees

theorem http_schema : Schema .zero httpFields where
  names := by decide +kernel
  apart := by
    simp only [httpFields, List.pairwise_cons, List.forall_mem_cons]
    and_intros
    all_goals first | exact fieldOf_apart (fun _ _ => rfl) (fun _ _ => rfl) | simp
  lawful := by
    simp only [httpFields, List.forall_mem_cons]
    and_intros
    all_goals first | refine fieldOf_lawful ?_ (fun _ _ => rfl) (fun _ _ _ => rfl) rfl | simp
    · exact readBool_invariant.agrees
    · exact readStrings_agrees
    · exact readStrings_agrees
    · exact readMap_agrees (readSlice_invariant readText_invariant)
    · exact (readSlice_invariant readInt_invariant).agrees
    · exact readText_invariant.agrees
  ext s s' h := by
    cases s
    cases s'
    simpa [httpFields, fieldOf, HTTPSpec.zero] using h

theorem tls_schema : Schema .zero tlsFields where
  names := by decide +kernel
  apart := by
    simp only [tlsFields, List.pairwise_cons, List.forall_mem_cons]
    and_intros
    all_goals first | exact fieldOf_apart (fun _ _ => rfl) (fun _ _ => rfl) | simp
  lawful := by
    simp only [tlsFields, List.forall_mem_cons]
    and_intros
    all_goals first | refine fieldOf_lawful ?_ (fun _ _ => rfl) (fun _ _ _ => rfl) rfl | simp
    · exact readText_invariant.agrees
    · exact readBool_invariant.agrees
    · exact readStrings_agrees
    · exact readBool_invariant.agrees
    · exact readBool_invariant.agrees
    · exact (readPointer_invariant readInt_invariant).agrees
    · exact readText_invariant.agrees
  ext s s' h := by
    cases s
    cases s'
    simpa [tlsFields, fieldOf, TLSSpec.zero] using h

theorem ssh_schema : Schema .zero sshFields where
  names := by decide +kernel
  apart := by
    simp only [sshFields, List.pairwise_cons, List.forall_mem_cons]
    and_intros
    all_goals first | exact fieldOf_apart (fun _ _ => rfl) (fun _ _ => rfl) | simp
  lawful := by
    simp only [sshFields, List.forall_mem_cons]
    and_intros
    all_goals first | refine fieldOf_lawful ?_ (fun _ _ => rfl) (fun _ _ _ => rfl) rfl | simp
    · exact readStrings_agrees
    · exact readStrings_agrees
    · exact readStrings_agrees
    · exact readStrings_agrees
    · exact readBool_invariant.agrees
    · exact readText_invariant.agrees
  ext s s' h := by
    cases s
    cases s'
    simpa [sshFields, fieldOf, SSHSpec.zero] using h

/-! ## Signed checks -/

/-- The members of the specification. -/
def Check.members (check : Check) : List (String × Value) :=
  match specValue check.spec with
  | some (.obj members) => members
  | _ => []

theorem obj_of_head {v : Value} (h : v.text.head? = some '\x7b') : ∃ mems, v = .obj mems := by
  by_cases hd : v.depth = 0
  · obtain ⟨c, s, hcs, -, hn⟩ := text_head v
    rw [hcs] at h
    exact absurd (some.inj h) (hn hd).2
  cases v with
  | arr items => exact absurd (some.inj h) (by decide)
  | obj mems => exact ⟨mems, rfl⟩
  | _ => exact absurd rfl hd

/-- What `validate` asks of the other fields. -/
def Check.Described (check : Check) : Prop :=
  check.schemaVersion = CheckDefinition.schemaVersion ∧ isIdentifier check.id = true ∧ isVersion check.version = true ∧
    isKind check.kind = true ∧ isSeverity check.severity = true ∧ isExecutionClass check.executionClass = true ∧
    String.ofList (trimSpace check.title.toList) ≠ "" ∧
    (String.ofList (trimSpace check.title.toList)).utf8ByteSize ≤ maxTitleBytes

theorem validate_eq_ok {check : Check} : validate check = .ok () ↔ check.Described ∧
      (check.spec.utf8ByteSize ≠ 0 ∧ check.spec.utf8ByteSize ≤ maxSpecBytes) ∧
      ∃ mems, specValue check.spec = some (.obj mems) := by
  have hs : (match canonicalSpec check.spec with
        | none => Except.error CheckError.specJson
        | some canonical => require (canonical.toList.head? = some '\x7b') .specObject) = .ok () ↔
      ∃ mems, specValue check.spec = some (.obj mems) := by
    rw [canonicalSpec]
    cases hv : specValue check.spec with
    | none => simp
    | some v =>
      simp only [map_some, String.toList_ofList, require_eq_ok, decide_eq_true_eq, some.injEq]
      constructor
      · intro hh
        obtain ⟨mems, ho⟩ := obj_of_head hh
        cases v with
        | obj mems => exact ⟨mems, rfl⟩
        | _ => cases ho
      · rintro ⟨mems, rfl⟩
        rfl
  rw [← hs]
  simp only [validate, bind_eq_ok, require_eq_ok, decide_eq_true_eq]
  constructor
  · rintro ⟨_, h1, _, h2, _, h3, _, h4, _, h5, _, h6, _, h7, _, h8, h9⟩
    exact ⟨⟨h1, h2, h3, h4, h5, h6, h7⟩, h8, h9⟩
  · rintro ⟨⟨h1, h2, h3, h4, h5, h6, h7⟩, h8, h9⟩
    exact ⟨(), h1, (), h2, (), h3, (), h4, (), h5, (), h6, (), h7, (), h8, h9⟩

theorem checkFields_distinct (check : Check) (spec : Value) :
    DistinctNames ((checkFields check spec).map (·.name)) := by
  have hn : (checkFields check spec).map (·.name) =
      ["schema_version", "id", "version", "kind", "title", "description", "severity", "execution_class", "spec"] := rfl
  rw [hn]
  decide +kernel

theorem payload_fixes {a b : Check} {v w : Value} (h : signingPayload a v = signingPayload b w) :
    a.kind = b.kind ∧ v = w := by
  have hm : members (checkFields a v) = members (checkFields b w) := by
    simpa [signingPayload] using h
  have hl : ∀ name, lookup name (members (checkFields a v)) = lookup name (members (checkFields b w)) := by
    intro name
    rw [hm]
  have hk := hl "kind"
  have hs := hl "spec"
  rw [lookup_members (f := ⟨"kind", .str a.kind, false⟩) (checkFields_distinct a v) (by simp [checkFields]),
    lookup_members (f := ⟨"kind", .str b.kind, false⟩) (checkFields_distinct b w) (by simp [checkFields])] at hk
  rw [lookup_members (f := ⟨"spec", v, false⟩) (checkFields_distinct a v) (by simp [checkFields]),
    lookup_members (f := ⟨"spec", w, false⟩) (checkFields_distinct b w) (by simp [checkFields])] at hs
  simp only [Bool.false_eq_true, if_false, some.injEq, str.injEq] at hk hs
  exact ⟨hk, hs⟩

section
variable {σ : Type} {kind : String} {fields : List (RecordField σ)} {zero : σ}
  {validateSpec : σ → Except CheckError Unit}

theorem decodeSpec_eq_ok {check : Check} {mems : List (String × Value)} {spec : σ}
    (hv : specValue check.spec = some (.obj mems)) :
    decodeSpec kind fields zero validateSpec check = .ok spec ↔ validate check = .ok () ∧ check.kind = kind ∧
      readRecord fields zero (.obj mems) = some spec ∧ validateSpec spec = .ok () := by
  unfold decodeSpec
  rw [hv, bind_some]
  simp only [bind_eq_ok, require_eq_ok, decide_eq_true_eq]
  constructor
  · rintro ⟨_, hva, _, hk, h⟩
    split at h
    · cases h
    · rename_i spec' hr
      obtain ⟨_, hs, he⟩ := bind_eq_ok.mp h
      cases he
      exact ⟨hva, hk, hr, hs⟩
  · rintro ⟨hva, hk, hr, hs⟩
    refine ⟨(), hva, (), hk, ?_⟩
    rw [hr]
    exact bind_eq_ok.mpr ⟨(), hs, rfl⟩

/-- Each field reads the same from the members of both specifications. -/
def SameFields (fields : List (RecordField σ)) (zero : σ) (a b : Check) : Prop :=
  ∀ f ∈ fields, f.readAll zero (given f.name a.members) = f.readAll zero (given f.name b.members)

/-- The two checks decode to the same result if they are aligned, and exactly if
each field reads the same, once one of them decodes. -/
def Fixed (decode : Check → Except CheckError σ) (fields : List (RecordField σ)) (zero : σ) (aligned : Prop)
    (a b : Check) : Prop :=
  (aligned → decode a = decode b) ∧
    ((∃ spec, decode a = .ok spec ∨ decode b = .ok spec) → (decode a = decode b ↔ SameFields fields zero a b))

/-- Two accepted checks of one kind whose specifications stand for fields alike. -/
structure Alike (fields : List (RecordField σ)) (a b : Check) : Prop where
  left : validate a = .ok ()
  right : validate b = .ok ()
  kind : a.kind = b.kind
  known : Known fields a.members ↔ Known fields b.members

theorem Alike.symm {a b : Check} (h : Alike fields a b) : Alike fields b a :=
  ⟨h.right, h.left, h.kind.symm, h.known.symm⟩

theorem specValue_members {check : Check} (h : validate check = .ok ()) :
    specValue check.spec = some (.obj check.members) := by
  obtain ⟨-, -, mems, hv⟩ := validate_eq_ok.mp h
  rw [Check.members, hv]

theorem Alike.same_of_ok (hf : Schema zero fields) {a b : Check} (h : Alike fields a b) {spec : σ}
    (ha : decodeSpec kind fields zero validateSpec a = .ok spec) :
    decodeSpec kind fields zero validateSpec b = .ok spec ↔ SameFields fields zero a b := by
  obtain ⟨-, hk, hr, hs⟩ := (decodeSpec_eq_ok (specValue_members h.left)).mp ha
  obtain ⟨hkn, hread⟩ := (readRecord_eq_some hf).mp hr
  have hstart : ∀ f ∈ fields, f.only zero = zero := fun f hm => (hf.lawful f hm).start
  rw [decodeSpec_eq_ok (specValue_members h.right), readRecord_eq_some hf]
  constructor
  · rintro ⟨-, -, ⟨-, hread'⟩, -⟩ f hm
    rw [← hstart f hm, hread f hm, hread' f hm]
  · intro hsame
    refine ⟨h.right, h.kind.symm.trans hk, ⟨h.known.mp hkn, fun f hm => ?_⟩, hs⟩
    rw [hstart f hm, ← hsame f hm, ← hread f hm, hstart f hm]

theorem Alike.same_iff (hf : Schema zero fields) {a b : Check} (h : Alike fields a b)
    (hd : ∃ spec, decodeSpec kind fields zero validateSpec a = .ok spec ∨
      decodeSpec kind fields zero validateSpec b = .ok spec) :
    decodeSpec kind fields zero validateSpec a = decodeSpec kind fields zero validateSpec b ↔
      SameFields fields zero a b := by
  obtain ⟨spec, ha | hb⟩ := hd
  · rw [← h.same_of_ok hf ha, ha, eq_comm]
  · have hsymm : SameFields fields zero a b ↔ SameFields fields zero b a := forall₂_congr fun _ _ => eq_comm
    rw [hsymm, ← h.symm.same_of_ok hf hb, hb]

theorem decodeSpec_congr {a b : Check} (ha : validate a = .ok ()) (hb : validate b = .ok ()) (hk : a.kind = b.kind)
    (hr : readRecord fields zero (.obj a.members) = readRecord fields zero (.obj b.members)) :
    decodeSpec kind fields zero validateSpec a = decodeSpec kind fields zero validateSpec b := by
  unfold decodeSpec
  rw [ha, hb, specValue_members ha, specValue_members hb, hk, bind_some, bind_some, hr]

theorem payload_canonical {a b : Check} (ha : validate a = .ok ()) (hb : validate b = .ok ())
    (hp : signaturePayload a = signaturePayload b) :
    a.kind = b.kind ∧ (obj a.members).canonical = (obj b.members).canonical := by
  unfold signaturePayload at hp
  rw [ha, hb, specValue_members ha, specValue_members hb] at hp
  exact payload_fixes (text_injective (String.ofList_injective (Except.ok.inj hp)))

theorem fixed_of_payload (hf : Schema zero fields) {a b : Check} (ha : validate a = .ok ()) (hb : validate b = .ok ())
    (hp : signaturePayload a = signaturePayload b) :
    Fixed (decodeSpec kind fields zero validateSpec) fields zero
      (Aligned fields a.members ∧ Aligned fields b.members) a b := by
  obtain ⟨hk, hc⟩ := payload_canonical ha hb hp
  constructor
  · rintro ⟨hal, hal'⟩
    refine decodeSpec_congr ha hb hk ?_
    rw [← readRecord_canonical hf hal, hc, readRecord_canonical hf hal']
  · have hen : canonicalEntries a.members = canonicalEntries b.members := by
      simpa only [canonical_obj, obj.injEq] using hc
    refine Alike.same_iff hf ⟨ha, hb, hk, ?_⟩
    rw [← known_canonicalEntries, hen, known_canonicalEntries]

theorem fixed_canonical (hf : Schema zero fields) {check : Check} (h : validate check = .ok ()) {text : String}
    (ht : canonicalSpec check.spec = some text) (hs : text.utf8ByteSize ≤ maxSpecBytes) :
    Fixed (decodeSpec kind fields zero validateSpec) fields zero (Aligned fields check.members)
      { check with spec := text } check := by
  obtain ⟨hd, -⟩ := validate_eq_ok.mp h
  have hv := specValue_members h
  rw [canonicalSpec, hv] at ht
  obtain rfl := some.inj ht
  have hr : specValue (String.ofList (obj check.members).canonical.text) = some (obj check.members).canonical := by
    rw [specValue, String.toList_ofList]
    exact parse_text (canonical_depth (parse_depth hv))
  have hva : validate { check with spec := String.ofList (obj check.members).canonical.text } = .ok () :=
    validate_eq_ok.mpr ⟨hd, ⟨by simp [canonical, text], hs⟩, _, hr⟩
  have hm : Check.members { check with spec := String.ofList (obj check.members).canonical.text } =
      canonicalEntries check.members := by
    rw [Check.members, hr]
    rfl
  constructor
  · intro hal
    refine decodeSpec_congr hva h rfl ?_
    rw [hm, ← canonical_obj, readRecord_canonical hf hal]
  · refine Alike.same_iff hf ⟨hva, h, rfl, ?_⟩
    rw [hm, known_canonicalEntries]

end

def sampleEnv : Env := ⟨id, fun _ => true⟩

/-- A check whose specification is written from these members. -/
def writtenCheck (members : List (String × Value)) : Check :=
  ⟨1, "web.https", "1.0.0", "http", "HTTPS", "", "low", "", String.ofList (obj members).text⟩

section
variable {ms ms' : List (String × Value)}

section
variable (h : (obj ms).depth ≤ maxNestingDepth)
include h

theorem written_value : specValue (writtenCheck ms).spec = some (.obj ms) := by
  show parse maxNestingDepth (String.ofList _).toList = _
  rw [String.toList_ofList]
  exact parse_text h

theorem written_valid
    (hs : (writtenCheck ms).spec.utf8ByteSize ≠ 0 ∧ (writtenCheck ms).spec.utf8ByteSize ≤ maxSpecBytes) :
    validate (writtenCheck ms) = .ok () := by
  refine validate_eq_ok.mpr ⟨?_, hs, ms, written_value h⟩
  unfold Check.Described writtenCheck
  dsimp only
  decide +kernel

theorem written_members : (writtenCheck ms).members = ms := by
  rw [Check.members, written_value h]

end

theorem written_payload (hv : validate (writtenCheck ms) = .ok ()) (hv' : validate (writtenCheck ms') = .ok ())
    (h : (obj ms).depth ≤ maxNestingDepth) (h' : (obj ms').depth ≤ maxNestingDepth)
    (hs : (obj ms).canonical = (obj ms').canonical) :
    signaturePayload (writtenCheck ms) = signaturePayload (writtenCheck ms') := by
  unfold signaturePayload
  rw [hv, hv', written_value h, written_value h']
  show Except.ok (String.ofList (signingPayload (writtenCheck ms) _).text) =
    Except.ok (String.ofList (signingPayload (writtenCheck ms') _).text)
  rw [hs]
  rfl

theorem written_decode (hv : validate (writtenCheck ms) = .ok ()) (h : (obj ms).depth ≤ maxNestingDepth)
    {spec : HTTPSpec} (hr : readRecord httpFields .zero (.obj ms) = some spec)
    (hs : validateHTTPSpec sampleEnv spec = .ok ()) : decodeHTTPSpec sampleEnv (writtenCheck ms) = .ok spec := by
  unfold decodeHTTPSpec decodeSpec
  rw [hv, written_value h, bind_some, hr]
  show (do validateHTTPSpec sampleEnv spec; return spec) = _
  rw [hs]
  rfl

end

/-- HTTPS is required twice, under two spellings of the name, in either order. -/
def repeated : List (String × Value) :=
  [("require_https", .bool true), ("REQUIRE_HTTPS", .bool true), ("remediation", .str "r")]

def repeatedSorted : List (String × Value) :=
  [("REQUIRE_HTTPS", .bool true), ("remediation", .str "r"), ("require_https", .bool true)]

theorem aligned_written {ms : List (String × Value)} (h : (obj ms).depth ≤ maxNestingDepth)
    (hone : ∀ a ∈ ms, a.2.depth = 0 ∧ ∀ b ∈ ms, foldName a.1 = foldName b.1 → a.2.text = b.2.text) :
    Aligned httpFields (writtenCheck ms).members := by
  rw [written_members h]
  intro _ a ha
  refine ⟨fun mems hm => ?_, fun b hb hn => by rw [text_injective ((hone a ha).2 b hb hn)]⟩
  have hd := (hone a ha).1
  rw [hm, depth] at hd
  cases hd

/-- HTTPS is required under one spelling of the name, and not required under
another. -/
def twiceNamed : List (String × Value) :=
  [("require_https", .bool true), ("REQUIRE_HTTPS", .bool false), ("allowed_status_codes", .arr [.num 200]),
    ("remediation", .str "r")]

/-- The same in canonical order. -/
def twiceNamedSorted : List (String × Value) :=
  [("REQUIRE_HTTPS", .bool false), ("allowed_status_codes", .arr [.num 200]), ("remediation", .str "r"),
    ("require_https", .bool true)]

end Mossward.L1.CheckDefinition
