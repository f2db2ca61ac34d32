import Mossward.Core.JsonNumber
import Mossward.Core.Table
import Mossward.L1Encoding.AddrText
import Mossward.L1Encoding.ByteText

/-!
# Listening services, from the kernel's tables to the server's check

The Linux agent reads `/proc/net/tcp`, `tcp6`, `udp` and `udp6` and sends what
listens as an inventory (`internal/agentapp/listening_linux.go`). The server
refuses a whole check-in if a record does not pass `validateListeningInventory`
(`internal/agentidentity/service.go`), which asks for more than the reader
establishes: two sockets of one process on one port (`SO_REUSEPORT`), or two
whose owners are unknown, are one record twice to it, and a table may name port
zero or a process whose path is too long. Between the two stands JSON: a byte that
is not UTF-8 arrives as the three bytes of U+FFFD, and a body over 4 MiB is
refused. How long the body is, with the other parts of the check-in, is given.

Results: `inventory_eq`, `inventory_accepted_iff`, `shared_port_refused`.
-/
namespace Mossward.L4.ListeningInventory

open L1.NetAddr L1.AddrText L1.ByteText Table List

/-! ## Agent -/

structure SocketOwner where
  pid : Int := 0
  name : Bytes := []
  executable : Bytes := []
deriving DecidableEq, Repr

/-- The owners by the inode of their socket. -/
abbrev Owners := List (Bytes × SocketOwner)

/-- `owners[inode]`: the zero owner if the inode is unknown. -/
def Owners.get (owners : Owners) (inode : Bytes) : SocketOwner := (owners.lookup inode).getD {}

/-- `model.ListeningService`. -/
structure ListeningService where
  protocol : String
  address : String
  port : Int
  processID : Int
  processName : Bytes
  executable : Bytes
deriving DecidableEq, Repr

/-- A file under `/proc/net`; one that fails cannot be opened or read to its end. -/
inductive ProcFile
  | missing
  | failing
  | content (s : Bytes)

inductive ReadError
  | notExist
  | other
deriving DecidableEq, Repr

/-- Bytes as characters, for functions that look at ASCII only. -/
def ascii (s : Bytes) : List Char := s.map fun b => Char.ofNat b.toNat

/-- Mirrors `zeroProcRemote`, `internal/agentapp/listening_linux.go:72-75`. -/
def zeroProcRemote (value : Bytes) : Bool :=
  match cut 0x3a value with
  | some (address, port) => trim 0x30 address = [] && trim 0x30 port = []
  | none => false

/-- `strconv.ParseUint` in base 16 with 16 bits. -/
def parseUint16 (s : List Char) : Option Nat :=
  if s = [] then none
  else s.foldlM (fun n c => (hexValue c).bind fun d => if n * 16 + d ≤ 65535 then some (n * 16 + d) else none) 0

/-- The bytes of each word the other way round. -/
def swapWords : Bytes → Bytes
  | a :: b :: c :: d :: rest => d :: c :: b :: a :: swapWords rest
  | rest => rest

/-- Mirrors `parseProcAddress`, `internal/agentapp/listening_linux.go:77-101`. -/
def parseProcAddress (value : Bytes) (ipv6 : Bool) : Option (String × Nat) :=
  (cut 0x3a value).bind fun (rawAddress, rawPort) =>
    (parseUint16 (ascii rawPort)).bind fun port =>
      let (bytes, whole) := hexDecode (ascii rawAddress)
      if !whole || (!ipv6 && bytes.length ≠ 4) || (ipv6 && bytes.length ≠ 16) then none
      else (addrFromSlice (swapWords bytes)).map fun address => (text address, port)

/-- What a line of a table says of a socket. -/
structure Socket where
  protocol : String
  address : String
  port : Nat
  inode : Bytes
deriving DecidableEq, Repr

/-- One line of a table; `none` if it is skipped. -/
def readLine (protocol : String) (ipv6 udp : Bool) (line : Bytes) : Option Socket :=
  match fields line with
  | _ :: localAddress :: remote :: state :: _ :: _ :: _ :: _ :: _ :: inode :: _ =>
    if (!udp && state ≠ utf8 "0A") || (udp && (state ≠ utf8 "07" || !zeroProcRemote remote)) then none
    else (parseProcAddress localAddress ipv6).map fun (address, port) => ⟨protocol, address, port, inode⟩
  | _ => none   -- fewer than ten fields

/-- The record of a socket, with its owner. -/
def service (owners : Owners) (x : Socket) : ListeningService :=
  let owner := owners.get x.inode
  ⟨x.protocol, x.address, x.port, owner.pid, owner.name, owner.executable⟩

/-- Mirrors `readLinuxSockets`, `internal/agentapp/listening_linux.go:47-70`: the
first line is the header. -/
def readLinuxSockets (file : ProcFile) (protocol : String) (ipv6 udp : Bool) (owners : Owners) :
    Except ReadError (List ListeningService) :=
  match file with
  | .missing => .error .notExist
  | .failing => .error .other
  | .content s =>
    match scanLines s with
    | none => .error .other
    | some lines => .ok (((lines.drop 1).filterMap (readLine protocol ipv6 udp)).map (service owners))

def maximumListeningServices : Nat := 20000

structure Source where
  file : ProcFile
  protocol : String
  ipv6 : Bool
  udp : Bool

/-- `err != nil && !os.IsNotExist(err)`: a file that does not exist adds nothing. -/
def ignoreNotExist : Except ReadError (List ListeningService) → Except ReadError (List ListeningService)
  | .error .notExist => .ok []
  | result => result

/-- The loop over the sources. -/
def readSources (owners : Owners) : List Source → List ListeningService → Except ReadError (List ListeningService)
  | [], services => .ok services
  | source :: sources, services =>
    match ignoreNotExist (readLinuxSockets source.file source.protocol source.ipv6 source.udp owners) with
    | .error e => .error e
    | .ok items =>
      if maximumListeningServices ≤ (services ++ items).length then
        .ok ((services ++ items).take maximumListeningServices)
      else readSources owners sources (services ++ items)

structure Files where
  tcp : ProcFile := .missing
  tcp6 : ProcFile := .missing
  udp : ProcFile := .missing
  udp6 : ProcFile := .missing

def Files.sources (files : Files) : List Source :=
  [⟨files.tcp, "tcp", false, false⟩, ⟨files.tcp6, "tcp", true, false⟩, ⟨files.udp, "udp", false, true⟩,
    ⟨files.udp6, "udp", true, true⟩]

/-- Mirrors `internal/agentapp/listening_linux.go:25-45`. -/
def platformListeningInventory (files : Files) (owners : Owners) : Except ReadError (List ListeningService) :=
  readSources owners files.sources []

/-- `model.EndpointListeningInventory`; times count from the zero time. -/
structure Inventory where
  services : List ListeningService
  collectedAt : Int

/-- Mirrors `collectListeningInventory`, `internal/agentapp/inventory.go:60-69`. -/
def collectListeningInventory (allowed : Bool) (files : Files) (owners : Owners) (now : Int) :
    Except ReadError (Option Inventory) :=
  if !allowed then .ok none
  else (platformListeningInventory files owners).map fun services => some ⟨services, now⟩

/-! ## Server -/

/-- A string that `json.Marshal` writes and the server decodes. -/
def received (s : Bytes) : Bytes := Utf8.mapRunes some s

def ListeningService.received (s : ListeningService) : ListeningService :=
  { s with
    processName := ListeningInventory.received s.processName
    executable := ListeningInventory.received s.executable }

/-- What the error is about: the body, the inventory, a record of it, or its
address. -/
inductive ListeningError
  | body
  | inventory
  | record
  | address
deriving DecidableEq, Repr

/-- `fmt.Sprintf("%s\x00%s\x00%d\x00%d", ...)`. -/
def identity (s : ListeningService) : String :=
  String.ofList
    (['\x00'].intercalate [s.protocol.toList, s.address.toList, Json.integer s.port, Json.integer s.processID])

/-- The check of one service, after those in `seen`. -/
def refuseService (seen : List ListeningService) (s : ListeningService) : Option ListeningError :=
  if (s.protocol ≠ "tcp" ∧ s.protocol ≠ "udp") ∨ s.port < 1 ∨ s.port > 65535 ∨ s.processID < 0 ∨
      s.processName.length > 500 ∨ s.executable.length > 2000 ∨ identity s ∈ seen.map identity then
    some .record
  else if parseAddr s.address = none then some .address
  else none

/-- Mirrors `internal/agentidentity/service.go:532-552`. -/
def validateListeningInventory : Option Inventory → Except ListeningError Unit
  | none => .ok ()
  | some inventory =>
    if inventory.collectedAt = 0 ∨ inventory.services.length > 20000 then .error .inventory
    else (insertAll refuseService [] inventory.services).map fun _ => ()

def maximumAgentCheckInSize : Nat := 4194304

/-- A check-in with a body of this length. Mirrors
`internal/agentidentity/service.go:340-349`, as far as the inventory goes. -/
def checkIn (bodyLength : Nat) (inventory : Option Inventory) : Except ListeningError Unit :=
  if maximumAgentCheckInSize < bodyLength then .error .body
  else validateListeningInventory
    (inventory.map fun i => { i with services := i.services.map ListeningService.received })

/-! ## What the agent reports -/

/-- The sockets that the lines of a file name. -/
def Source.sockets (source : Source) : List Socket :=
  match source.file with
  | .content s => (((scanLines s).getD []).drop 1).filterMap (readLine source.protocol source.ipv6 source.udp)
  | _ => []

/-- The sockets that the lines of the four files name, as many as are reported. -/
def Files.sockets (files : Files) : List Socket :=
  (files.sources.flatMap Source.sockets).take maximumListeningServices

/-- A socket as the agent reads it: a protocol the server knows, the text of an
address without a zone, and a port of two bytes. -/
structure Reported (x : Socket) : Prop where
  protocol : x.protocol = "tcp" ∨ x.protocol = "udp"
  address : ∃ a, x.address = text a ∧ ∀ bits zone, a = .v6 bits zone → zone = ""
  port : x.port ≤ 65535

theorem parseUint16_le {s : List Char} {n : Nat} (h : parseUint16 s = some n) : n ≤ 65535 := by
  have hf : ∀ (s : List Char) (m : Nat), m ≤ 65535 → ∀ n,
      s.foldlM (fun n c => (hexValue c).bind fun d => if n * 16 + d ≤ 65535 then some (n * 16 + d) else none) m =
        some n → n ≤ 65535 := by
    intro s
    induction s with
    | nil =>
      intro m hm n hn
      have hmn : m = n := by simpa using hn
      omega
    | cons c s ih =>
      intro m hm n hn
      rw [foldlM_cons, Option.bind_eq_bind, Option.bind_eq_some_iff] at hn
      obtain ⟨k, hk, hr⟩ := hn
      obtain ⟨d, -, hd⟩ := Option.bind_eq_some_iff.mp hk
      split at hd
      · next hl => exact ih k (Option.some.inj hd ▸ hl) n hr
      · cases hd
  unfold parseUint16 at h
  split at h
  · cases h
  · exact hf s 0 (by omega) n h

theorem parseProcAddress_facts {value : Bytes} {ipv6 : Bool} {adr : String} {port : Nat}
    (h : parseProcAddress value ipv6 = some (adr, port)) :
    (∃ a, adr = text a ∧ ∀ bits zone, a = .v6 bits zone → zone = "") ∧ port ≤ 65535 := by
  obtain ⟨⟨rawAddress, rawPort⟩, -, h⟩ := Option.bind_eq_some_iff.mp h
  obtain ⟨port', hp, h⟩ := Option.bind_eq_some_iff.mp h
  dsimp only at h
  split at h
  · cases h
  · obtain ⟨a, ha, h⟩ := Option.map_eq_some_iff.mp h
    cases h
    exact ⟨⟨a, rfl, addrFromSlice_zone ha⟩, parseUint16_le hp⟩

theorem reported_readLine {proto : String} (hp : proto = "tcp" ∨ proto = "udp") {ipv6 udp : Bool} {line : Bytes}
    {x : Socket} (h : readLine proto ipv6 udp line = some x) : Reported x := by
  unfold readLine at h
  split at h
  · split at h
    · cases h
    · obtain ⟨⟨adr, port⟩, hpa, rfl⟩ := Option.map_eq_some_iff.mp h
      obtain ⟨ha, hpo⟩ := parseProcAddress_facts hpa
      exact ⟨hp, ha, hpo⟩
  · cases h

theorem reported_sockets {files : Files} : ∀ x ∈ files.sockets, Reported x := by
  intro x hx
  obtain ⟨src, hs, hx⟩ := mem_flatMap.mp (mem_of_mem_take hx)
  have hp : src.protocol = "tcp" ∨ src.protocol = "udp" := by
    simp only [Files.sources, mem_cons, not_mem_nil, or_false] at hs
    rcases hs with rfl | rfl | rfl | rfl
    · exact Or.inl rfl
    · exact Or.inl rfl
    · exact Or.inr rfl
    · exact Or.inr rfl
  unfold Source.sockets at hx
  split at hx
  · obtain ⟨line, -, hl⟩ := mem_filterMap.mp hx
    exact reported_readLine hp hl
  · cases hx

variable {owners : Owners}

theorem readLinuxSockets_ok {src : Source} {items : List ListeningService}
    (h : ignoreNotExist (readLinuxSockets src.file src.protocol src.ipv6 src.udp owners) = .ok items) :
    items = src.sockets.map (service owners) := by
  unfold Source.sockets
  cases hf : src.file with
  | missing =>
    rw [hf] at h
    cases h
    rfl
  | failing =>
    rw [hf] at h
    cases h
  | content text =>
    rw [hf, readLinuxSockets] at h
    split at h
    · cases h
    · next lines hl =>
      cases h
      simp only [hl, Option.getD_some]

theorem readSources_ok {sources : List Source} {pre after : List ListeningService}
    (hl : pre.length ≤ maximumListeningServices) (h : readSources owners sources pre = .ok after) :
    after = (pre ++ (sources.flatMap Source.sockets).map (service owners)).take maximumListeningServices := by
  induction sources generalizing pre with
  | nil =>
    cases h
    simpa using (take_of_length_le hl).symm
  | cons src sources ih =>
    rw [readSources] at h
    rw [flatMap_cons, map_append, ← append_assoc]
    split at h
    · cases h
    next items hi =>
    rw [← readLinuxSockets_ok hi]
    split at h
    · next hfull =>
      cases h
      exact (take_append_of_le_length hfull).symm
    · next hf => exact ih (by omega) h

/-- The inventory is a record for each socket that the files name. -/
theorem inventory_eq {files : Files} {svcs : List ListeningService}
    (h : platformListeningInventory files owners = .ok svcs) : svcs = files.sockets.map (service owners) := by
  rw [readSources_ok (Nat.zero_le _) h, Files.sockets, map_take]
  rfl

/-! ## What the server accepts -/

/-- Where a socket listens. -/
def Socket.endpoint (x : Socket) : String × String × Nat := (x.protocol, x.address, x.port)

theorem nul_notMem_integer (n : Int) : '\x00' ∉ Json.integer n := by
  have hd : ∀ m, '\x00' ∉ Nat.toDigits 10 m := by
    intro m hm
    have hdi := Json.isDigit_toDigits hm
    cases hdi
  cases n with
  | ofNat n => exact hd n
  | negSucc n =>
    intro hm
    rcases mem_cons.mp hm with hmi | hm
    · cases hmi
    · exact hd (n + 1) hm

theorem integer_inj {m n : Int} (h : Json.integer m = Json.integer n) : m = n := by
  have hm := Json.integerOf_integer m
  rw [h, Json.integerOf_integer] at hm
  exact (Option.some.inj hm).symm

variable {x y : Socket}

/-- The record that the server gets of a socket. -/
def record (owners : Owners) (x : Socket) : ListeningService := (service owners x).received

theorem Reported.parts (h : Reported x) (owners : Owners) :
    ∀ part ∈ [x.protocol.toList, x.address.toList, Json.integer x.port, Json.integer (owners.get x.inode).pid],
      '\x00' ∉ part := by
  intro part hpa
  simp only [mem_cons, not_mem_nil, or_false] at hpa
  rcases hpa with rfl | rfl | rfl | rfl
  · rcases h.protocol with hp | hp
    · rw [hp]
      decide
    · rw [hp]
      decide
  · obtain ⟨a, ha, hz⟩ := h.address
    rw [ha]
    intro hn
    exact absurd (text_chars hz _ hn) (by decide)
  · exact nul_notMem_integer _
  · exact nul_notMem_integer _

theorem identity_inj (h : Reported x) (h' : Reported y) : identity (record owners x) = identity (record owners y) ↔
    x.endpoint = y.endpoint ∧ (owners.get x.inode).pid = (owners.get y.inode).pid := by
  constructor
  · intro he
    have hj := String.ofList_injective he
    simp only [record, service, ListeningService.received] at hj
    have hs := splitOn_intercalate '\x00' (h.parts owners) (by simp)
    rw [hj, splitOn_intercalate '\x00' (h'.parts owners) (by simp)] at hs
    simp only [cons.injEq, and_true] at hs
    obtain ⟨hp, ha, hpo, hpi⟩ := hs
    unfold Socket.endpoint
    rw [String.toList_injective hp, String.toList_injective ha, Int.ofNat.inj (integer_inj hpo)]
    exact ⟨rfl, (integer_inj hpi).symm⟩
  · intro ⟨he, hpi⟩
    simp only [Socket.endpoint, Prod.mk.injEq] at he
    obtain ⟨hp, ha, hpo⟩ := he
    unfold identity record
    simp only [service, ListeningService.received, hp, ha, hpo, hpi]

/-- What the validator asks of an owner. -/
structure SocketOwner.WithinLimits (owner : SocketOwner) : Prop where
  pid : 0 ≤ owner.pid
  name : (received owner.name).length ≤ 500
  executable : (received owner.executable).length ≤ 2000

/-- The rules for one service on its own. -/
structure Accepts (s : ListeningService) : Prop where
  protocol : s.protocol = "tcp" ∨ s.protocol = "udp"
  port : 1 ≤ s.port ∧ s.port ≤ 65535
  processID : 0 ≤ s.processID
  processName : s.processName.length ≤ 500
  executable : s.executable.length ≤ 2000
  address : parseAddr s.address ≠ none

theorem refuseService_none_iff (seen : List ListeningService) (s : ListeningService) :
    refuseService seen s = none ↔ Accepts s ∧ ∀ x ∈ seen, identity x ≠ identity s := by
  unfold refuseService
  constructor
  · intro hn
    split at hn
    · cases hn
    split at hn
    · cases hn
    next hno ha =>
    simp only [not_or, mem_map, not_exists, not_and] at hno
    obtain ⟨hpr, hl, hh, hpi, hna, hex, hf⟩ := hno
    have hk : s.protocol = "tcp" ∨ s.protocol = "udp" := by
      by_cases ht : s.protocol = "tcp"
      · exact Or.inl ht
      · exact Or.inr (not_not.mp (hpr ht))
    exact ⟨⟨hk, by omega, by omega, by omega, by omega, ha⟩, hf⟩
  · intro ⟨⟨hpr, hpo, hpi, hna, hex, ha⟩, hf⟩
    rw [if_neg, if_neg ha]
    intro hb
    rcases hb with hp | hp | hp | hp | hp | hp | hp
    · rcases hpr with h | h
      · exact hp.1 h
      · exact hp.2 h
    · omega
    · omega
    · omega
    · omega
    · omega
    · obtain ⟨x, hx, he⟩ := mem_map.mp hp
      exact hf x hx he

theorem Reported.accepts_iff (h : Reported x) :
    Accepts (record owners x) ↔ x.port ≠ 0 ∧ (owners.get x.inode).WithinLimits := by
  have hh := h.port
  have hpa : parseAddr (record owners x).address ≠ none := by
    obtain ⟨a, ha, -⟩ := h.address
    show parseAddr x.address ≠ none
    rw [ha, parseAddr_text]
    simp
  constructor
  · intro ⟨_, ⟨hpo, _⟩, hp, hn, he, _⟩
    simp only [record, service, ListeningService.received] at hpo
    exact ⟨by omega, hp, hn, he⟩
  · intro ⟨hpo, hp, hn, he⟩
    refine ⟨h.protocol, ?_, hp, hn, he, hpa⟩
    simp only [record, service, ListeningService.received]
    omega

theorem keyed_identity_iff {xs : List Socket} (h : ∀ x ∈ xs, Reported x) :
    Keyed identity (xs.map (record owners)) ↔ xs.Pairwise fun x y =>
      x.endpoint = y.endpoint → (owners.get x.inode).pid ≠ (owners.get y.inode).pid := by
  unfold Keyed List.Nodup
  rw [pairwise_map, pairwise_map]
  apply List.Pairwise.iff_of_mem
  intro x y hx hy
  rw [ne_eq, identity_inj (h x hx) (h y hy), not_and]

/-- **Acceptance.** The check-in is not refused for what the agent collects exactly
when its body is within the limit and, if an inventory is sent, it carries a time,
no line of the files names port zero, every owner of a socket has a process that is
not negative and texts that arrive within the limits, and sockets that listen at
one address and port have owners with different processes. -/
theorem inventory_accepted_iff {allowed : Bool} {files : Files} {owners : Owners} {now : Int}
    {inventory : Option Inventory} (h : collectListeningInventory allowed files owners now = .ok inventory)
    (bodyLength : Nat) :
    checkIn bodyLength inventory = .ok () ↔ bodyLength ≤ maximumAgentCheckInSize ∧
      (allowed = true → now ≠ 0 ∧
        (∀ x ∈ files.sockets, x.port ≠ 0 ∧ (owners.get x.inode).WithinLimits) ∧
        files.sockets.Pairwise fun x y =>
          x.endpoint = y.endpoint → (owners.get x.inode).pid ≠ (owners.get y.inode).pid) := by
  unfold checkIn
  by_cases hb : maximumAgentCheckInSize < bodyLength
  · simp [hb]
  rw [if_neg hb]
  unfold collectListeningInventory at h
  cases allowed with
  | false =>
    cases h
    simpa [validateListeningInventory] using hb
  | true =>
    obtain ⟨svcs, hse, rfl⟩ := map_eq_ok.mp h
    have hr : ∀ x ∈ files.sockets, Reported x := reported_sockets
    have hsv : svcs.map ListeningService.received = files.sockets.map (record owners) := by
      rw [inventory_eq hse, map_map]
      rfl
    have hloop : (insertAll refuseService [] (files.sockets.map (record owners))).map (fun _ => ()) = .ok () ↔
        (∀ x ∈ files.sockets, x.port ≠ 0 ∧ (owners.get x.inode).WithinLimits) ∧
        files.sockets.Pairwise fun x y =>
          x.endpoint = y.endpoint → (owners.get x.inode).pid ≠ (owners.get y.inode).pid := by
      rw [← keyed_identity_iff hr, map_eq_ok]
      constructor
      · intro ⟨t, ht, _⟩
        obtain ⟨⟨ha, hk, -⟩, -⟩ := (insertAll_ok_iff refuseService_none_iff).mp ht
        exact ⟨fun x hx => (hr x hx).accepts_iff.mp (ha _ (mem_map_of_mem hx)), hk⟩
      · intro ⟨hw, hk⟩
        refine ⟨_, (insertAll_ok_iff refuseService_none_iff).mpr ⟨⟨?_, hk, ?_⟩, rfl⟩, rfl⟩
        · intro s hs
          obtain ⟨x, hx, rfl⟩ := mem_map.mp hs
          exact (hr x hx).accepts_iff.mpr (hw x hx)
        · intro s _ x hx
          cases hx
    have hf : ¬ (files.sockets.map (record owners)).length > 20000 := by
      rw [length_map]
      exact Nat.not_lt.mpr (length_take_le _ _)
    show (if now = 0 ∨ (svcs.map ListeningService.received).length > 20000 then _ else
      (insertAll refuseService [] (svcs.map ListeningService.received)).map fun _ => ()) = _ ↔ _
    rw [hsv]
    by_cases hn : now = 0
    · simp [hn]
    · rw [if_neg (not_or.mpr ⟨hn, hf⟩), hloop]
      simp [hn, Nat.not_lt.mp hb]

/-- A table of TCP sockets with a header and one line for each inode, all on port
8080 of the loopback address. -/
def loopbackTable (inodes : List String) : Bytes :=
  utf8 "  sl  local_address rem_address   st tx_queue rx_queue tr tm->when retrnsmt   uid  timeout inode\n" ++
    inodes.flatMap fun inode =>
      utf8 "   0: 0100007F:1F90 00000000:0000 0A 00000000:00000000 00:00000000 00000000  1000        0 " ++
        utf8 inode ++ utf8 " 1 0000000000000000\n"

def loopbackFiles (inodes : List String) : Files := { tcp := .content (loopbackTable inodes) }

def loopbackService (owner : SocketOwner) : ListeningService :=
  ⟨"tcp", "127.0.0.1", 8080, owner.pid, owner.name, owner.executable⟩

def web : SocketOwner := ⟨7, utf8 "web", utf8 "/usr/bin/web"⟩

theorem inventory_accepted_one_socket :
    checkIn 300 (some ⟨[loopbackService web], 1⟩) = .ok () := by
  have hr : platformListeningInventory (loopbackFiles ["345"]) [(utf8 "345", web)] = .ok [loopbackService web] := by
    decide +kernel
  have hs : (loopbackFiles ["345"]).sockets = [⟨"tcp", "127.0.0.1", 8080, utf8 "345"⟩] := by
    decide +kernel
  have hc : collectListeningInventory true (loopbackFiles ["345"]) [(utf8 "345", web)] 1 =
      .ok (some ⟨[loopbackService web], 1⟩) := by
    rw [collectListeningInventory, hr]
    rfl
  refine (inventory_accepted_iff hc 300).mpr ⟨by decide, fun _ => ⟨by decide, ?_⟩⟩
  rw [hs]
  refine ⟨?_, pairwise_singleton _ _⟩
  intro x hx
  obtain rfl := mem_singleton.mp hx
  exact ⟨by decide, by decide +kernel, by decide +kernel, by decide +kernel⟩

/-- Two sockets share a port and their owners are not known: the agent reports
both, and the server refuses the inventory. -/
theorem shared_port_refused :
    platformListeningInventory (loopbackFiles ["345", "346"]) [] = .ok [loopbackService {}, loopbackService {}] ∧
      checkIn 300 (some ⟨[loopbackService {}, loopbackService {}], 1⟩) = .error .record := by
  constructor
  · decide +kernel
  · decide +kernel

end Mossward.L4.ListeningInventory
