import Mossward.Core.Run
import Mossward.L3Protocol.SecretBox

/-!
# Rotation of the identity key (`internal/auth/secretbox.go`, `internal/store/identity_rotation.go`)

The command `rotate-identity-key` (`cmd/mossward/main.go:328-336`) calls
`BeginIdentityKeyRotation`, which adds a key to the key file,
`RotateIdentityCiphertexts`, which seals every value of the five encrypted
columns anew in one transaction, and `FinalizeIdentityKeyRotation`, which
leaves the new key alone in the file. It stops at the first error.

The machine below runs these calls any number of times. Each of them changes
one durable thing; an error or a crash ends the process before or after that
change (`Outcome`). A call uses the box that the last `BeginIdentityKeyRotation`
of the same process returned.

Results: `rotation_crash_safe`, `rotation_completes`.
-/
namespace Mossward.L4.KeyRotation

open L3.Secrets List
open Table
open Run

/-! ## The key file -/

section
variable (P : Primitives)

/-- The keyring that stands for a raw key. -/
def legacyKeyring (key : IdentityKey) : Keyring :=
  ⟨keyringVersion, identityKeyID P key.1, identityKeyID P key.1,
    SortedMap.empty.insert (identityKeyID P key.1) (Base64.encode key.1)⟩

/-- Mirrors `secretbox.go:62-70`: a file is read as a keyring if it can be. -/
def currentKeyring (data : Bytes) : Except BoxError Keyring :=
  match decodeKeyring P data with
  | .ok ring => .ok ring
  | .error e =>
    if h : data.length = identityKeyBytes then .ok (legacyKeyring P ⟨data, h⟩) else .error e

/-- Mirrors `secretbox.go:76-78`. -/
def extendKeyring (ring : Keyring) (key : IdentityKey) : Keyring :=
  { ring with
    activeID := identityKeyID P key.1
    keys := ring.keys.insert (identityKeyID P key.1) (Base64.encode key.1) }

/-- The key file afterwards and the result; `key` is drawn at random. Mirrors
`secretbox.go:54-85`. -/
def beginIdentityKeyRotation (data : Bytes) (key : IdentityKey) : Bytes × Except BoxError (SecretBox P) :=
  match currentKeyring P data with
  | .error e => (data, .error e)
  | .ok ring =>
    if ring.keys.entries.length = 1 then
      (P.codec.marshalIndent (extendKeyring P ring key).value,
        parseSecretBox P (P.codec.marshal (extendKeyring P ring key).value))
    else (data, parseSecretBox P (P.codec.marshal ring.value))

end

section
variable {P : Primitives}

/-- The keyring of the active key alone; an id that the ring does not have
stands for the empty text. -/
def finalKeyring (box : SecretBox P) (ring : Keyring) : Keyring :=
  ⟨keyringVersion, box.activeID, box.activeID,
    SortedMap.empty.insert box.activeID ((ring.keys.get? box.activeID).getD "")⟩

/-- The key file afterwards. Mirrors `secretbox.go:91-110`. -/
def finalizeIdentityKeyRotation (box : SecretBox P) (data : Bytes) : Except BoxError Bytes :=
  match box.key? (utf8 box.activeID) with
  | none => .error .unavailable
  | some _ =>
    match decodeKeyring P data with
    | .error e => .error e
    | .ok ring => .ok (P.codec.marshalIndent (finalKeyring box ring).value)

end

/-! ## The encrypted columns -/

inductive EncryptedColumn
  | totpSecret | webauthnCredential | ceremonyState | oidcClientSecret | smtpPassword
deriving DecidableEq

def identityEncryptedColumns : List EncryptedColumn :=
  [.totpSecret, .webauthnCredential, .ceremonyState, .oidcClientSecret, .smtpPassword]

/-- The value of a primary key. -/
inductive KeyValue
  | text (s : String)
  | blob (data : Bytes)
  | int (n : Int)
deriving DecidableEq

structure Row where
  key : KeyValue
  value : Option Bytes
deriving DecidableEq

/-- The value of a row, where it is neither null nor empty. -/
def Row.held (row : Row) : Option Bytes := row.value.filter fun c => c ≠ []

structure Column where
  rows : List Row
  keyed : Keyed Row.key rows

abbrev Store : Type := EncryptedColumn → Column

def Column.update (column : Column) (key : KeyValue) (value : Bytes) : Column :=
  ⟨updateWhere (fun row => row.key = key) (fun row => { row with value := some value }) column.rows,
    column.keyed.updateWhere fun _ _ => rfl⟩

section
variable {P : Primitives}

/-- Decrypts and encrypts one record. Mirrors `identity_rotation.go:88-98`. -/
def rotateRecord (box : SecretBox P) (nonces : KeyValue → Nonce) (column : Column) (record : KeyValue × Bytes) :
    Except CipherError Column := do
  let plaintext ← box.decrypt record.2
  let ciphertext ← box.encrypt (nonces record.1) plaintext
  return column.update record.1 ciphertext

/-- The records that the rotation reads. -/
def Column.records (column : Column) : List (KeyValue × Bytes) :=
  column.rows.filterMap fun row => row.held.map fun c => (row.key, c)

/-- Mirrors `identity_rotation.go:62-102`. -/
def rotateEncryptedColumn (box : SecretBox P) (nonces : KeyValue → Nonce) (column : Column) :
    Except CipherError Column :=
  column.records.foldlM (rotateRecord box nonces) column

/-- The store that the transaction commits. Mirrors
`identity_rotation.go:31-56`. -/
def rotateIdentityCiphertexts (box : SecretBox P) (nonces : EncryptedColumn → KeyValue → Nonce) (store : Store) :
    Except CipherError Store :=
  identityEncryptedColumns.foldlM (fun store column => do
    let rotated ← rotateEncryptedColumn box (nonces column) (store column)
    return Function.update store column rotated) store

end

/-! ## The machine -/

inductive Phase (P : Primitives)
  | idle                            -- no process runs
  | begun (box : SecretBox P)
  | rotated (box : SecretBox P)
  | finished                        -- the last call was a finalization that returned nil

/-- How a call ends: it returns, or an error of the system or a crash ends the
process, before or after the change of the call is durable. -/
inductive Outcome
  | returned
  | stopped (applied : Bool)
deriving DecidableEq

structure State (P : Primitives) where
  file : Bytes
  store : Store
  phase : Phase P

inductive Op
  | begins (key : IdentityKey) (outcome : Outcome)
  | rotates (nonces : EncryptedColumn → KeyValue → Nonce) (outcome : Outcome)
  | finalizes (outcome : Outcome)
  | dies

section
variable {P : Primitives}

def Phase.box? : Phase P → Option (SecretBox P)
  | .begun box | .rotated box => some box
  | .idle | .finished => none

def stepBegin (s : State P) (key : IdentityKey) : Outcome → State P
  | .returned =>
    { s with
      file := (beginIdentityKeyRotation P s.file key).1
      phase := match (beginIdentityKeyRotation P s.file key).2 with
        | .ok box => .begun box
        | .error _ => .idle }
  | .stopped applied =>
    { s with
      file := if applied then (beginIdentityKeyRotation P s.file key).1 else s.file
      phase := .idle }

def stepRotate (s : State P) (box : SecretBox P) (nonces : EncryptedColumn → KeyValue → Nonce)
    (outcome : Outcome) : State P :=
  match rotateIdentityCiphertexts box nonces s.store, outcome with
  | .error _, _ => { s with phase := .idle }
  | .ok store, .returned => { s with store := store, phase := .rotated box }
  | .ok store, .stopped applied => { s with store := if applied then store else s.store, phase := .idle }

def stepFinalize (s : State P) (box : SecretBox P) (outcome : Outcome) : State P :=
  match finalizeIdentityKeyRotation box s.file, outcome with
  | .error _, _ => { s with phase := .idle }
  | .ok file, .returned => { s with file := file, phase := .finished }
  | .ok file, .stopped applied => { s with file := if applied then file else s.file, phase := .idle }

/-- A call needs the box of the process it is made in. -/
def step (s : State P) : Op → State P
  | .begins key outcome => stepBegin s key outcome
  | .rotates nonces outcome =>
    match s.phase.box? with
    | some box => stepRotate s box nonces outcome
    | none => s
  | .finalizes outcome =>
    match s.phase.box? with
    | some box => stepFinalize s box outcome
    | none => s
  | .dies => { s with phase := .idle }

end

/-! ## What the calls do to the key file -/

section
variable (P : Primitives)

/-- A raw key is not by chance the text of a keyring. -/
def Unambiguous (data : Bytes) : Prop :=
  data.length = identityKeyBytes → ∀ ring, decodeKeyring P data ≠ .ok ring

variable {P}

/-- The file is a keyring, with this box. -/
def Current (box : SecretBox P) (data : Bytes) : Prop :=
  data.length ≠ identityKeyBytes ∧ ∃ ring, decodeKeyring P data = .ok ring ∧ ring.box P = .ok box

variable {data : Bytes}

theorem Current.unambiguous {box : SecretBox P} (h : Current box data) : Unambiguous P data :=
  fun hl => absurd hl h.1

theorem Current.parse {box : SecretBox P} (h : Current box data) : parseSecretBox P data = .ok box := by
  obtain ⟨hl, ring, hd, hb⟩ := h
  rw [parseSecretBox, dif_neg hl, hd]
  exact hb

theorem decodeKeyring_version {ring : Keyring} (h : decodeKeyring P data = .ok ring) :
    ring.version = keyringVersion := by
  unfold decodeKeyring at h
  split at h
  · cases h
  split at h
  · cases h
  rename_i hf
  cases h
  by_contra hv
  exact hf (.inl hv)

theorem readKey_encode (key : IdentityKey) :
    readKey P (identityKeyID P key.1, Base64.encode key.1) = .ok key :=
  (readKey_eq_ok P).mpr ⟨Base64.decode_encode key.1, rfl⟩

theorem legacyKeyring_box (key : IdentityKey) : (legacyKeyring P key).box P = .ok (rawBox P key) := by
  refine (Keyring.box_eq_ok P).mpr ⟨?_, rfl, rfl⟩
  show [(identityKeyID P key.1, Base64.encode key.1)].mapM (readKey P) = .ok [key]
  simp only [mapM_cons, readKey_encode]
  rfl

theorem currentKeyring_box (hf : Unambiguous P data) {box : SecretBox P}
    (hp : parseSecretBox P data = .ok box) :
    ∃ ring, currentKeyring P data = .ok ring ∧ ring.version = keyringVersion ∧ ring.box P = .ok box ∧
      (ring.keys.entries.length ≠ 1 → Current box data) := by
  unfold parseSecretBox at hp
  split at hp
  · rename_i hl
    cases hp
    refine ⟨legacyKeyring P ⟨data, hl⟩, ?_, rfl, legacyKeyring_box _, fun h => absurd rfl h⟩
    unfold currentKeyring
    cases hd : decodeKeyring P data with
    | ok ring => exact absurd hd (hf hl ring)
    | error e =>
      dsimp only
      rw [dif_pos hl]
  · rename_i hl
    obtain ⟨ring, hd, hb⟩ := bind_eq_ok.mp hp
    refine ⟨ring, ?_, decodeKeyring_version hd, hb, fun _ => ⟨hl, ring, hd, hb⟩⟩
    rw [currentKeyring, hd]

theorem extendKeyring_box {ring : Keyring} {box : SecretBox P} (hb : ring.box P = .ok box) {key : IdentityKey}
    (hf : identityKeyID P key.1 ∉ ring.keys.entries.map Prod.fst) :
    ∃ box', (extendKeyring P ring key).box P = .ok box' ∧ box.Extends box' := by
  obtain ⟨hr, ha, hl⟩ := (Keyring.box_eq_ok P).mp hb
  have hi := readKeys_ids P hr
  -- the old entries are still there, since none of them has the new id
  have ho : ∀ e ∈ ring.keys.entries, e ∈ (extendKeyring P ring key).keys.entries := by
    intro e he
    refine SortedMap.mem_insert.mpr (.inr ⟨he, fun hid => hf ?_⟩)
    rw [← hid]
    exact mem_map_of_mem he
  have hn : (identityKeyID P key.1, Base64.encode key.1) ∈ (extendKeyring P ring key).keys.entries :=
    SortedMap.mem_insert.mpr (.inl rfl)
  have hke : ∀ e ∈ (extendKeyring P ring key).keys.entries, ∃ k, readKey P e = .ok k := by
    intro e he
    rcases SortedMap.mem_insert.mp he with rfl | ⟨he, -⟩
    · exact ⟨key, readKey_encode key⟩
    · exact exists_of_mapM_ok hr he
  have hle : ring.legacyID ∈ (extendKeyring P ring key).keys.entries.map Prod.fst := by
    have hm := box.legacy
    rw [hi, hl] at hm
    obtain ⟨e, he, heq⟩ := mem_map.mp hm
    exact mem_map.mpr ⟨e, ho e he, heq⟩
  obtain ⟨box', hb'⟩ := Keyring.exists_box P hke (mem_map_of_mem hn) hle
  obtain ⟨hr', ha', hl'⟩ := (Keyring.box_eq_ok P).mp hb'
  refine ⟨box', hb', hl'.trans hl.symm, ?_⟩
  intro k hk
  obtain ⟨e, he, hek⟩ := (mem_mapM_ok hr).mp hk
  exact (mem_mapM_ok hr').mpr ⟨e, ho e he, hek⟩

/-- The key that a begun rotation adds has an id of its own. -/
def FreshKey (P : Primitives) (data : Bytes) (key : IdentityKey) : Prop :=
  ∀ ring, currentKeyring P data = .ok ring → identityKeyID P key.1 ∉ ring.keys.entries.map Prod.fst

/-- **Beginning.** The file becomes a keyring whose box is returned, and that
box opens all that the old one did. -/
theorem begin_spec (hfi : Unambiguous P data) {box : SecretBox P}
    (hp : parseSecretBox P data = .ok box) {key : IdentityKey} (hf : FreshKey P data key) :
    ∃ box', (beginIdentityKeyRotation P data key).2 = .ok box' ∧ box.Extends box' ∧
      Current box' (beginIdentityKeyRotation P data key).1 := by
  obtain ⟨ring, hri, hv, hb, hm⟩ := currentKeyring_box hfi hp
  unfold beginIdentityKeyRotation
  rw [hri]
  dsimp only
  split
  · obtain ⟨box', hb', he⟩ := extendKeyring_box hb (hf ring hri)
    have hv' : (extendKeyring P ring key).version = keyringVersion := hv
    obtain ⟨-, -, hr⟩ := parseSecretBox_written P hv' hb' (.inl rfl)
    obtain ⟨hl, hd, -⟩ := parseSecretBox_written P hv' hb' (.inr rfl)
    exact ⟨box', hr, he, hl, _, hd, hb'⟩
  · rename_i hl
    obtain ⟨-, -, hr⟩ := parseSecretBox_written P hv hb (.inl rfl)
    exact ⟨box, hr, ⟨rfl, List.Subset.refl _⟩, hm hl⟩

/-- **Finalizing.** The file becomes a keyring of the active key alone. -/
theorem finalize_spec {box : SecretBox P} (h : Current box data) :
    ∃ data' ring', finalizeIdentityKeyRotation box data = .ok data' ∧ decodeKeyring P data' = .ok ring' ∧
      ring'.keys.entries.length = 1 ∧
      ∃ box' : SecretBox P, Current box' data' ∧ box'.key? (utf8 box.activeID) = box.key? (utf8 box.activeID) := by
  obtain ⟨-, ring, hde, hb⟩ := h
  obtain ⟨hr, -, -⟩ := (Keyring.box_eq_ok P).mp hb
  obtain ⟨key, hm, hi, hk⟩ := box.exists_active
  obtain ⟨e, he, hek⟩ := (mem_mapM_ok hr).mp hm
  obtain ⟨hd, hn⟩ := (readKey_eq_ok P).mp hek
  have hg : ring.keys.get? box.activeID = some e.2 := by
    apply SortedMap.get?_eq_some_iff.mpr
    rw [← hi, hn]
    exact he
  have hen : (finalKeyring box ring).keys.entries = [(box.activeID, e.2)] := by
    rw [finalKeyring, hg]
    rfl
  have hent : readKey P (box.activeID, e.2) = .ok key := (readKey_eq_ok P).mpr ⟨hd, hi⟩
  obtain ⟨box', hb'⟩ : ∃ box', (finalKeyring box ring).box P = .ok box' := by
    have ha : box.activeID ∈ (finalKeyring box ring).keys.entries.map Prod.fst := by
      exact mem_singleton_self _
    refine Keyring.exists_box P ?_ ha ha
    intro e' he'
    rw [hen, mem_singleton] at he'
    exact ⟨key, he' ▸ hent⟩
  obtain ⟨hl, hd', -⟩ := parseSecretBox_written P (rfl : (finalKeyring box ring).version = _) hb' (.inr rfl)
  refine ⟨_, finalKeyring box ring, ?_, hd', by rw [hen]; rfl, box', ⟨hl, _, hd', hb'⟩, ?_⟩
  · simp only [finalizeIdentityKeyRotation, hk, hde]
  · obtain ⟨hr', -, -⟩ := (Keyring.box_eq_ok P).mp hb'
    rw [hk, SecretBox.key?_eq_some_iff]
    refine ⟨(mem_mapM_ok hr').mpr ⟨_, ?_, hent⟩, by rw [hi]⟩
    rw [hen]
    exact mem_singleton_self _

end

/-! ## What the rotation does to the columns -/

section
variable {P : Primitives}

/-- What a row holds under a box. -/
def Row.reading (box : SecretBox P) (row : Row) : KeyValue × Option (Except CipherError Bytes) :=
  (row.key, row.held.map box.decrypt)

/-- Every value opens, row by row, to the plaintext that is given. -/
def Opens (plain : EncryptedColumn → List (KeyValue × Option Bytes)) (box : SecretBox P) (store : Store) : Prop :=
  ∀ column, (store column).rows.map (Row.reading box) = (plain column).map fun e => (e.1, e.2.map .ok)

variable {plain : EncryptedColumn → List (KeyValue × Option Bytes)} {box box' : SecretBox P} {store : Store}

variable {row : Row}

theorem Opens.decrypt (h : Opens plain box store) {col : EncryptedColumn}
    (hr : row ∈ (store col).rows) {c : Bytes} (hc : row.held = some c) : ∃ p, box.decrypt c = .ok p := by
  have hm := mem_map_of_mem (f := Row.reading box) hr
  rw [h col] at hm
  obtain ⟨e, -, he⟩ := mem_map.mp hm
  have hv : e.2.map .ok = some (box.decrypt c) := by
    have := congrArg Prod.snd he
    rwa [Row.reading, hc] at this
  obtain ⟨p, -, hp⟩ := Option.map_eq_some_iff.mp hv
  exact ⟨p, hp.symm⟩

theorem Opens.transfer (h : Opens plain box store)
    (hb : ∀ col, ∀ row ∈ (store col).rows, ∀ c, row.held = some c → ∀ p, box.decrypt c = .ok p →
      box'.decrypt c = .ok p) : Opens plain box' store := by
  intro col
  rw [← h col]
  apply map_congr_left
  intro row hr
  cases hc : row.held with
  | none => simp [Row.reading, hc]
  | some c =>
    obtain ⟨p, hp⟩ := h.decrypt hr hc
    simp [Row.reading, hc, hp, hb col row hr c hc p hp]

/-- The value sealed anew. -/
def resealed (box : SecretBox P) (nonce : Nonce) (c : Bytes) : Bytes :=
  match box.decrypt c >>= box.encrypt nonce with
  | .ok c' => c'
  | .error _ => c

theorem resealed_spec {c p : Bytes} (nonce : Nonce) (hp : box.decrypt c = .ok p) :
    box.encrypt nonce p = .ok (resealed box nonce c) ∧ Headed box.activeID (resealed box nonce c) ∧
      box.decrypt (resealed box nonce c) = .ok p := by
  obtain ⟨c', he, hh, hd⟩ := box.decrypt_encrypt nonce p
  have hc' : resealed box nonce c = c' := by
    have hb : (box.decrypt c >>= box.encrypt nonce) = .ok c' := bind_eq_ok.mpr ⟨p, hp, he⟩
    rw [resealed, hb]
  rw [hc']
  exact ⟨he, hh, hd⟩

/-- The row with its value sealed anew. -/
def rotatedRow (box : SecretBox P) (nonces : KeyValue → Nonce) (row : Row) : Row :=
  match row.held with
  | none => row
  | some c => { row with value := some (resealed box (nonces row.key) c) }

variable (nonces : KeyValue → Nonce)

theorem rotatedRow_spec (ho : ∀ c, row.held = some c → ∃ p, box.decrypt c = .ok p) :
    (rotatedRow box nonces row).reading box = row.reading box ∧
      ∀ c, (rotatedRow box nonces row).held = some c → Headed box.activeID c := by
  unfold rotatedRow
  cases hc : row.held with
  | none =>
    refine ⟨rfl, ?_⟩
    intro c hc'
    rw [hc] at hc'
    cases hc'
  | some c =>
    obtain ⟨p, hp⟩ := ho c hc
    obtain ⟨-, hh, hd⟩ := resealed_spec (nonces row.key) hp
    have hhe : ({ row with value := some (resealed box (nonces row.key) c) } : Row).held =
        some (resealed box (nonces row.key) c) := by
      simp [Row.held, hh.ne_nil]
    constructor
    · simp only [Row.reading, hhe, hc, Option.map_some, hd, hp]
    · intro c' hc'
      rw [hhe] at hc'
      cases hc'
      exact hh

/-! One update after the other, seen from a row. -/

def Row.set (row : Row) (update : KeyValue × Bytes) : Row :=
  if row.key = update.1 then { row with value := some update.2 } else row

theorem Row.set_key (row : Row) (update : KeyValue × Bytes) : (row.set update).key = row.key := by
  unfold Row.set
  split <;> rfl

theorem foldl_update_rows (us : List (KeyValue × Bytes)) (col : Column) :
    (us.foldl (fun col u => col.update u.1 u.2) col).rows = col.rows.map fun row => us.foldl Row.set row := by
  induction us generalizing col with
  | nil => simp
  | cons u us ih =>
    rw [foldl_cons, ih, Column.update]
    simp only [updateWhere, map_map]
    apply map_congr_left
    intro row _
    simp only [Function.comp_apply, foldl_cons, Row.set, decide_eq_true_eq]

theorem foldl_set_other {us : List (KeyValue × Bytes)} (h : row.key ∉ us.map Prod.fst) :
    us.foldl Row.set row = row := by
  induction us with
  | nil => rfl
  | cons u us ih =>
    rw [map_cons, mem_cons, not_or] at h
    rw [foldl_cons, Row.set, if_neg h.1]
    exact ih h.2

theorem foldl_set_mem {us : List (KeyValue × Bytes)} (hk : Keyed Prod.fst us) {v : Bytes}
    (h : (row.key, v) ∈ us) : us.foldl Row.set row = { row with value := some v } := by
  induction us with
  | nil => cases h
  | cons u us ih =>
    obtain ⟨hf, hr⟩ := nodup_cons.mp hk
    rw [foldl_cons]
    rcases mem_cons.mp h with rfl | hm
    · -- no later update has this key
      rw [foldl_set_other (by rw [Row.set_key]; exact hf), Row.set, if_pos rfl]
    · have hn : row.key ≠ u.1 := fun he => hf (he ▸ mem_map_of_mem hm)
      rw [Row.set, if_neg hn]
      exact ih hr hm

theorem mem_records {col : Column} {key : KeyValue} {c : Bytes} :
    (key, c) ∈ col.records ↔ ∃ row ∈ col.rows, row.held = some c ∧ row.key = key := by
  simp only [Column.records, mem_filterMap, Option.map_eq_some_iff, Prod.mk.injEq]
  constructor
  · rintro ⟨row, hr, c', hc', hk, rfl⟩
    exact ⟨row, hr, hc', hk⟩
  · rintro ⟨row, hr, hc, hk⟩
    exact ⟨row, hr, c, hc, hk, rfl⟩

theorem records_keyed (col : Column) : Keyed Prod.fst col.records := by
  have hs : (col.records.map Prod.fst).Sublist (col.rows.map Row.key) := by
    unfold Column.records
    generalize col.rows = rows
    induction rows with
    | nil => exact List.Sublist.refl _
    | cons row rows ih =>
      rw [filterMap_cons]
      cases row.held with
      | none => exact ih.cons _
      | some c => exact ih.cons_cons _
  exact col.keyed.sublist hs

/-- The update of a record. -/
def updateOf (box : SecretBox P) (nonces : KeyValue → Nonce) (record : KeyValue × Bytes) : KeyValue × Bytes :=
  (record.1, resealed box (nonces record.1) record.2)

/-- All records decrypt, so the loop makes all updates. -/
theorem foldlM_rotateRecord {recs : List (KeyValue × Bytes)}
    (ho : ∀ r ∈ recs, ∃ p, box.decrypt r.2 = .ok p) (col : Column) :
    recs.foldlM (rotateRecord box nonces) col =
      .ok ((recs.map (updateOf box nonces)).foldl (fun col u => col.update u.1 u.2) col) := by
  induction recs generalizing col with
  | nil => rfl
  | cons r recs ih =>
    obtain ⟨p, hp⟩ := ho r mem_cons_self
    obtain ⟨he, -, -⟩ := resealed_spec (nonces r.1) hp
    have hs : rotateRecord box nonces col r = .ok (col.update r.1 (resealed box (nonces r.1) r.2)) := by
      exact bind_eq_ok.mpr ⟨p, hp, bind_eq_ok.mpr ⟨_, he, rfl⟩⟩
    rw [foldlM_cons, hs]
    exact ih (fun r' hr' => ho r' (mem_cons_of_mem _ hr')) _

/-- **One column.** Every held value is sealed anew. -/
theorem rotateEncryptedColumn_rows {col : Column}
    (ho : ∀ row ∈ col.rows, ∀ c, row.held = some c → ∃ p, box.decrypt c = .ok p) :
    ∃ col', rotateEncryptedColumn box nonces col = .ok col' ∧
      col'.rows = col.rows.map (rotatedRow box nonces) := by
  have hre : ∀ r ∈ col.records, ∃ p, box.decrypt r.2 = .ok p := by
    intro r hr
    obtain ⟨row, hro, hc, -⟩ := mem_records.mp hr
    exact ho row hro r.2 hc
  have hk : (col.records.map (updateOf box nonces)).map Prod.fst = col.records.map Prod.fst := by
    rw [map_map]
    rfl
  refine ⟨_, foldlM_rotateRecord nonces hre col, ?_⟩
  rw [foldl_update_rows]
  apply map_congr_left
  intro row hro
  unfold rotatedRow
  cases hc : row.held with
  | none =>
    apply foldl_set_other
    rw [hk]
    intro hm
    obtain ⟨⟨key, c⟩, hr, hke⟩ := mem_map.mp hm
    obtain ⟨row', hr', hc', hk'⟩ := mem_records.mp hr
    rw [col.keyed.eq_of_key hr' hro (hk'.trans hke), hc] at hc'
    cases hc'
  | some c =>
    apply foldl_set_mem
    · rw [Keyed, hk]
      exact records_keyed col
    · exact mem_map.mpr ⟨(row.key, c), mem_records.mpr ⟨row, hro, hc, rfl⟩, rfl⟩

theorem foldlM_columns {f : EncryptedColumn → Column → Except CipherError Column} {cols : List EncryptedColumn}
    (hd : cols.Nodup) {tgt : EncryptedColumn → Column} {store : Store}
    (hf : ∀ col ∈ cols, f col (store col) = .ok (tgt col)) :
    cols.foldlM (fun store col => do
      let rotated ← f col (store col)
      return Function.update store col rotated) store =
      .ok fun col => if col ∈ cols then tgt col else store col := by
  induction cols generalizing store with
  | nil => simp [pure, Except.pure]
  | cons col cols ih =>
    obtain ⟨hfi, hr⟩ := nodup_cons.mp hd
    rw [foldlM_cons, hf col mem_cons_self]
    have hl : ∀ col' ∈ cols, f col' (Function.update store col (tgt col) col') = .ok (tgt col') := by
      intro col' hm
      have hn : col' ≠ col := fun he => hfi (he ▸ hm)
      rw [Function.update_of_ne hn]
      exact hf col' (mem_cons_of_mem _ hm)
    refine (ih hr hl).trans ?_
    congr 1
    funext col'
    by_cases he : col' = col
    · subst he
      simp [hfi]
    · simp [he]

theorem mem_identityEncryptedColumns (col : EncryptedColumn) : col ∈ identityEncryptedColumns := by
  cases col <;> decide

/-- **Rotating.** The transaction goes through, all values open as before, and
all of them name the active key. -/
theorem rotate_spec (h : Opens plain box store) (ns : EncryptedColumn → KeyValue → Nonce) :
    ∃ store', rotateIdentityCiphertexts box ns store = .ok store' ∧ Opens plain box store' ∧
      ∀ col, ∀ row ∈ (store' col).rows, ∀ c, row.held = some c → Headed box.activeID c := by
  have ho : ∀ col, ∀ row ∈ (store col).rows, ∀ c, row.held = some c → ∃ p, box.decrypt c = .ok p :=
    fun col row hr c hc => h.decrypt hr hc
  choose store' hrotate hrows using fun col => rotateEncryptedColumn_rows (ns col) (ho col)
  refine ⟨store', ?_, ?_, ?_⟩
  · refine (foldlM_columns (f := fun col => rotateEncryptedColumn box (ns col)) (by decide)
      fun col _ => hrotate col).trans ?_
    simp only [mem_identityEncryptedColumns, if_true]
  · intro col
    rw [← h col, hrows, map_map]
    apply map_congr_left
    intro row hr
    exact (rotatedRow_spec (ns col) (ho col row hr)).1
  · intro col row hr
    rw [hrows] at hr
    obtain ⟨row0, hr0, rfl⟩ := mem_map.mp hr
    exact (rotatedRow_spec (ns col) (ho col row0 hr0)).2

end

/-! ## Runs -/

section
variable {P : Primitives}

/-- The key file loads and every value opens to the plaintext that is given. -/
def Intact (plain : EncryptedColumn → List (KeyValue × Option Bytes)) (s : State P) : Prop :=
  ∃ box, parseSecretBox P s.file = .ok box ∧ Opens plain box s.store

/-- What holds of the box of a process. -/
def PhaseInv (s : State P) : Prop :=
  match s.phase with
  | .idle => True
  | .begun box => Current box s.file
  | .rotated box => Current box s.file ∧
      ∀ column, ∀ row ∈ (s.store column).rows, ∀ c, row.held = some c → Headed box.activeID c
  | .finished => ∃ ring, decodeKeyring P s.file = .ok ring ∧ ring.keys.entries.length = 1

structure Inv (plain : EncryptedColumn → List (KeyValue × Option Bytes)) (s : State P) : Prop where
  intact : Intact plain s
  unambiguous : Unambiguous P s.file
  phase : PhaseInv s

/-- The order in which the command calls: it finalizes after a rotation of the
values that returned nil. -/
def Ordered (s : State P) : Op → Prop
  | .finalizes _ => ∀ box, s.phase ≠ .begun box
  | _ => True

/-- Keys are generated with ids of their own. -/
def Fresh (s : State P) : Op → Prop
  | .begins key _ => FreshKey P s.file key
  | _ => True

variable {plain : EncryptedColumn → List (KeyValue × Option Bytes)} {s : State P}

theorem Inv.idle (h : Inv plain s) : Inv plain ({ s with phase := .idle } : State P) :=
  ⟨h.intact, h.unambiguous, trivial⟩

theorem Inv.current (h : Inv plain s) {box : SecretBox P} (hb : s.phase.box? = some box) :
    Current box s.file ∧ Opens plain box s.store := by
  have hc : Current box s.file := by
    have hph := h.phase
    unfold PhaseInv at hph
    cases hp : s.phase with
    | idle => simp [hp, Phase.box?] at hb
    | finished => simp [hp, Phase.box?] at hb
    | begun b =>
      rw [hp] at hb hph
      cases hb
      exact hph
    | rotated b =>
      rw [hp] at hb hph
      cases hb
      exact hph.1
  obtain ⟨b, hpa, ho⟩ := h.intact
  rw [hc.parse] at hpa
  cases hpa
  exact ⟨hc, ho⟩

variable {key : IdentityKey}

theorem Inv.stepBegin (h : Inv plain s) (hf : FreshKey P s.file key) (out : Outcome) :
    Inv plain (stepBegin s key out) := by
  obtain ⟨box, hpa, ho⟩ := h.intact
  obtain ⟨box', hr, he, hc⟩ := begin_spec h.unambiguous hpa hf
  have ho' : Opens plain box' s.store := ho.transfer fun _ _ _ _ _ _ hp => SecretBox.decrypt_extends he hp
  cases out with
  | returned =>
    refine ⟨⟨box', hc.parse, ho'⟩, hc.unambiguous, ?_⟩
    simp only [KeyRotation.stepBegin, hr]
    exact hc
  | stopped applied =>
    cases applied with
    | true => exact ⟨⟨box', hc.parse, ho'⟩, hc.unambiguous, trivial⟩
    | false => exact h.idle

theorem Inv.stepRotate (h : Inv plain s) {box : SecretBox P} (hb : s.phase.box? = some box)
    (ns : EncryptedColumn → KeyValue → Nonce) (out : Outcome) :
    Inv plain (stepRotate s box ns out) := by
  obtain ⟨hc, ho⟩ := h.current hb
  obtain ⟨store', hr, ho', hh⟩ := rotate_spec ho ns
  unfold KeyRotation.stepRotate
  rw [hr]
  cases out with
  | returned => exact ⟨⟨box, hc.parse, ho'⟩, h.unambiguous, hc, hh⟩
  | stopped applied =>
    cases applied with
    | true => exact ⟨⟨box, hc.parse, ho'⟩, h.unambiguous, trivial⟩
    | false => exact h.idle

theorem Inv.stepFinalize (h : Inv plain s) {box : SecretBox P} (hph : s.phase = .rotated box)
    (out : Outcome) : Inv plain (stepFinalize s box out) := by
  have hr := h.phase
  rw [PhaseInv, hph] at hr
  obtain ⟨hcu, hh⟩ := hr
  obtain ⟨-, ho⟩ := h.current (by rw [hph]; rfl)
  obtain ⟨file', ring', hf, hd, hon, box', hc', hk⟩ := finalize_spec hcu
  -- every value names the active key, which is the one that stays
  have ho' : Opens plain box' s.store := by
    refine ho.transfer fun col row hro c hc p hp => ?_
    rw [SecretBox.decrypt_headed (hh col row hro c hc) hk]
    exact hp
  unfold KeyRotation.stepFinalize
  rw [hf]
  cases out with
  | returned => exact ⟨⟨box', hc'.parse, ho'⟩, hc'.unambiguous, ring', hd, hon⟩
  | stopped applied =>
    cases applied with
    | true => exact ⟨⟨box', hc'.parse, ho'⟩, hc'.unambiguous, trivial⟩
    | false => exact h.idle

theorem Inv.step (h : Inv plain s) {op : Op} (ho : Ordered s op) (hf : Fresh s op) :
    Inv plain (step s op) := by
  cases op with
  | begins key out => exact h.stepBegin hf out
  | rotates ns out =>
    simp only [KeyRotation.step]
    cases hb : s.phase.box? with
    | none => exact h
    | some box => exact h.stepRotate hb ns out
  | finalizes out =>
    simp only [KeyRotation.step]
    cases hp : s.phase with
    | idle => exact h
    | finished => exact h
    | begun box => exact absurd hp (ho box)
    | rotated box => exact h.stepFinalize hp out
  | dies => exact h.idle

/-- The calls of one run of the command. -/
def command (key : IdentityKey) (nonces : EncryptedColumn → KeyValue → Nonce) : List Op :=
  [.begins key .returned, .rotates nonces .returned, .finalizes .returned]

theorem phase_stepRotate (s : State P) (box box' : SecretBox P) (ns : EncryptedColumn → KeyValue → Nonce)
    (out : Outcome) : (stepRotate s box ns out).phase ≠ .begun box' := by
  unfold stepRotate
  split <;> simp

/-- The command calls in order, whatever the calls return. -/
theorem along_command (hf : FreshKey P s.file key) (ns : EncryptedColumn → KeyValue → Nonce) :
    Along step (fun s op => Ordered s op ∧ Fresh s op) s (command key ns) := by
  refine ⟨⟨trivial, hf⟩, ⟨trivial, trivial⟩, ⟨?_, trivial⟩, trivial⟩
  intro box hp
  simp only [step] at hp
  cases hb : (stepBegin s key .returned).phase.box? with
  | none =>
    simp only [hb] at hp
    rw [hp] at hb
    cases hb
  | some box' =>
    simp only [hb] at hp
    exact phase_stepRotate _ _ _ _ _ hp

theorem Inv.phase_begins (h : Inv plain s) (hf : FreshKey P s.file key) :
    ∃ box, (KeyRotation.step s (.begins key .returned)).phase = .begun box := by
  obtain ⟨box, hp, -⟩ := h.intact
  obtain ⟨box', hr, -, -⟩ := begin_spec h.unambiguous hp hf
  refine ⟨box', ?_⟩
  simp only [KeyRotation.step, KeyRotation.stepBegin, hr]

theorem Inv.phase_rotates (h : Inv plain s) {box : SecretBox P} (hb : s.phase.box? = some box)
    (ns : EncryptedColumn → KeyValue → Nonce) :
    (KeyRotation.step s (.rotates ns .returned)).phase = .rotated box := by
  obtain ⟨-, ho⟩ := h.current hb
  obtain ⟨store', hr, -, -⟩ := rotate_spec ho ns
  simp only [KeyRotation.step, hb, KeyRotation.stepRotate, hr]

theorem Inv.phase_finalizes (h : Inv plain s) {box : SecretBox P} (hb : s.phase.box? = some box) :
    (KeyRotation.step s (.finalizes .returned)).phase = .finished := by
  obtain ⟨hc, -⟩ := h.current hb
  obtain ⟨file', ring', hf, -⟩ := finalize_spec hc
  simp only [KeyRotation.step, hb, KeyRotation.stepFinalize, hf]

/-- **Progress.** A run of the command that nothing interrupts goes through. -/
theorem rotation_completes (h : Inv plain s) (hf : FreshKey P s.file key)
    (ns : EncryptedColumn → KeyValue → Nonce) : (run step s (command key ns)).phase = .finished := by
  obtain ⟨box, hb⟩ := h.phase_begins hf
  have hi : Inv plain (step s (.begins key .returned)) := h.step trivial hf
  have hr := hi.phase_rotates (by rw [hb]; rfl) ns
  have hi' : Inv plain (step (step s (.begins key .returned)) (.rotates ns .returned)) :=
    hi.step trivial trivial
  exact hi'.phase_finalizes (by rw [hr]; rfl)

end

/-! ## A small server -/

def smallNonce : Nonce := ⟨replicate 12 0, rfl⟩

/-- One secret, sealed before there were envelopes. -/
def smallStore : Store
  | .totpSecret => ⟨[⟨.text "user", some (smallNonce.1 ++ [1, 2, 3])⟩], nodup_singleton _⟩
  | _ => ⟨[], nodup_nil⟩

def smallPlain : EncryptedColumn → List (KeyValue × Option Bytes)
  | .totpSecret => [(.text "user", some [1, 2, 3])]
  | _ => []

/-- The store of a server with this raw key. -/
def smallState (key : Bytes) : State smallPrimitives := ⟨key, smallStore, .idle⟩

theorem smallState_intact {key : Bytes} (h : key.length = identityKeyBytes) :
    Intact smallPlain (smallState key) := by
  refine ⟨rawBox smallPrimitives ⟨key, h⟩, ?_, ?_⟩
  · show parseSecretBox smallPrimitives key = _
    rw [parseSecretBox, dif_pos h]
  · intro col
    cases col with
    | totpSecret =>
      have hk : (rawBox smallPrimitives ⟨key, h⟩).key? (utf8 (identityKeyID smallPrimitives key)) =
          some ⟨key, h⟩ := SecretBox.key?_eq_some_iff.mpr ⟨mem_singleton_self _, rfl⟩
      have hd : (rawBox smallPrimitives ⟨key, h⟩).decrypt (smallNonce.1 ++ [1, 2, 3]) = .ok [1, 2, 3] := by
        have hp : (rawBox smallPrimitives ⟨key, h⟩).ciphertextKey (smallNonce.1 ++ [1, 2, 3]) =
            (utf8 (identityKeyID smallPrimitives key), smallNonce.1 ++ [1, 2, 3], []) := by
          rfl
        rw [SecretBox.decrypt_eq hp hk]
        rfl
      show [(KeyValue.text "user", some ((rawBox smallPrimitives ⟨key, h⟩).decrypt (smallNonce.1 ++ [1, 2, 3])))] = _
      rw [hd]
      rfl
    | _ => rfl

theorem unambiguous_smallKey : Unambiguous smallPrimitives (smallKey 1).1 := by
  have hb : (smallKey 1).1 = utf8 (String.ofList (replicate 32 '\x01')) := by decide +kernel
  have hp : Json.parse maxNestingDepth (replicate 32 '\x01') = none := by
    decide +kernel
  have hr : smallPrimitives.codec.unmarshal (smallKey 1).1 = none := by
    show Json.readUtf8 maxNestingDepth (smallKey 1).1 = none
    rw [hb, Json.readUtf8_utf8, String.toList_ofList, hp]
  intro _ ring hri
  simp [decodeKeyring, hr] at hri

theorem freshKey_smallKey : FreshKey smallPrimitives (smallKey 1).1 (smallKey 7) := by
  intro ring hr
  unfold currentKeyring at hr
  split at hr
  · rename_i ring' hr'
    exact absurd hr' (unambiguous_smallKey rfl ring')
  rw [dif_pos (smallKey 1).2] at hr
  obtain rfl : legacyKeyring smallPrimitives (smallKey 1) = ring := by simpa using hr
  intro hm
  have hi : identityKeyID smallPrimitives (smallKey 7).1 ≠ identityKeyID smallPrimitives (smallKey 1).1 := by
    decide +kernel
  exact hi (mem_singleton.mp hm)

/-! ## The result -/

section
variable {P : Primitives} {plain : EncryptedColumn → List (KeyValue × Option Bytes)} {s : State P}

/-- **Crash safety.** From a key file that loads and is not a raw key that
reads as a keyring, after any calls in the order of the command, ended by
errors and crashes anywhere and run again any number of times: the key file
loads, and row by row every value opens to its plaintext. After a finalization
that returned nil the file is a keyring of exactly one key. -/
theorem rotation_crash_safe (hidle : s.phase = .idle) (hintact : Intact plain s) (hfile : Unambiguous P s.file)
    (ops : List Op) (hops : Along step (fun s op => Ordered s op ∧ Fresh s op) s ops) :
    Intact plain (run step s ops) ∧ ((run step s ops).phase = .finished →
        ∃ ring, decodeKeyring P (run step s ops).file = .ok ring ∧ ring.keys.entries.length = 1) := by
  have hs : Inv plain s := by
    refine ⟨hintact, hfile, ?_⟩
    rw [PhaseInv, hidle]
    trivial
  have hi : Inv plain (run step s ops) := run_invariant_along (fun s op h ho => h.step ho.1 ho.2) hs hops
  refine ⟨hi.intact, fun hf => ?_⟩
  have hp := hi.phase
  rwa [PhaseInv, hf] at hp

end

/-- A rotation from a raw key goes through, and the secret still opens. -/
theorem rotation_crash_safe_command :
    (run step (smallState (smallKey 1).1) (command (smallKey 7) fun _ _ => smallNonce)).phase = .finished ∧
      Intact smallPlain (run step (smallState (smallKey 1).1) (command (smallKey 7) fun _ _ => smallNonce)) ∧
      ∃ ring, decodeKeyring smallPrimitives
        (run step (smallState (smallKey 1).1) (command (smallKey 7) fun _ _ => smallNonce)).file = .ok ring ∧
        ring.keys.entries.length = 1 := by
  have hi := smallState_intact (smallKey 1).2
  obtain ⟨ha, ho⟩ := rotation_crash_safe rfl hi unambiguous_smallKey _
    (along_command freshKey_smallKey fun _ _ => smallNonce)
  have hf := rotation_completes ⟨hi, unambiguous_smallKey, trivial⟩ freshKey_smallKey fun _ _ => smallNonce
  exact ⟨hf, ha, ho hf⟩

/-! ## A raw key that reads as a keyring -/

/-- A raw key of 32 bytes. -/
def textKey : Bytes := utf8 "\x7b\"version\":1,\"keys\":\x7b\"a\":\"bbb\"\x7d\x7d"

/-- What `textKey` reads as. -/
def textKeyring : Keyring := ⟨1, "", "", SortedMap.empty.insert "a" "bbb"⟩

theorem textKeyring_name {P : Primitives} (key : IdentityKey) : "a" ≠ identityKeyID P key.1 := by
  intro he
  have hl := length_identityKeyID P key.1
  rw [← he] at hl
  revert hl
  decide

theorem begin_textKey {P : Primitives} (hr : decodeKeyring P textKey = .ok textKeyring) (key : IdentityKey)
    (box : SecretBox P) : parseSecretBox P (beginIdentityKeyRotation P textKey key).1 ≠ .ok box := by
  have hri : currentKeyring P textKey = .ok textKeyring := by
    rw [currentKeyring, hr]
  have hf : (beginIdentityKeyRotation P textKey key).1 =
      P.codec.marshalIndent (extendKeyring P textKeyring key).value := by
    rw [beginIdentityKeyRotation, hri]
    rfl
  have hn : (identityKeyID P key.1, Base64.encode key.1) ∈ (extendKeyring P textKeyring key).keys.entries :=
    SortedMap.mem_insert.mpr (.inl rfl)
  have ho : ("a", "bbb") ∈ (extendKeyring P textKeyring key).keys.entries :=
    SortedMap.mem_insert.mpr (.inr ⟨SortedMap.mem_insert.mpr (.inl rfl), textKeyring_name key⟩)
  have hl : (P.codec.marshalIndent (extendKeyring P textKeyring key).value).length ≠ identityKeyBytes := by
    have ht := lt_length_text P hn (readKey_encode key)
    have := P.codec.length_marshalIndent (extendKeyring P textKeyring key).value
    omega
  have hde : decodeKeyring P (P.codec.marshalIndent (extendKeyring P textKeyring key).value) =
      .ok (extendKeyring P textKeyring key) :=
    decodeKeyring_written P rfl (ne_nil_of_mem hn) (.inr rfl)
  intro hp
  rw [hf, parseSecretBox, dif_neg hl, hde] at hp
  obtain ⟨hk, -, -⟩ := (Keyring.box_eq_ok P).mp hp
  obtain ⟨bad, hb⟩ := exists_of_mapM_ok hk ho
  have hd := ((readKey_eq_ok P).mp hb).1
  cases hd

theorem decodeKeyring_textKey : decodeKeyring smallPrimitives textKey = .ok textKeyring := by
  rfl

/-- The raw key loads and opens the secret. Beginning a rotation takes it for
a keyring and writes a file that does not load. -/
theorem rotation_loses_text_key : Intact smallPlain (smallState textKey) ∧
      Along step (fun s op => Ordered s op ∧ Fresh s op) (smallState textKey) [.begins (smallKey 7) .returned] ∧
      ¬ Intact smallPlain (run step (smallState textKey) [.begins (smallKey 7) .returned]) := by
  have hs : (smallState textKey).file = textKey := rfl
  refine ⟨smallState_intact (by decide +kernel), ⟨⟨trivial, ?_⟩, trivial⟩, ?_⟩
  · intro ring hr
    rw [hs, currentKeyring, decodeKeyring_textKey] at hr
    obtain rfl : textKeyring = ring := by simpa using hr
    intro hm
    exact textKeyring_name _ (mem_singleton.mp hm).symm
  · rintro ⟨box, hp, -⟩
    simp only [run_cons, run_nil, step, stepBegin, hs] at hp
    exact begin_textKey decodeKeyring_textKey (smallKey 7) box hp

end Mossward.L4.KeyRotation
