import Mathlib.Data.String.Basic
import Mossward.Core.Base64
import Mossward.Core.JsonBytes
import Mossward.Core.SortedMap

/-!
# The secret box (`internal/auth/secretbox.go`)

Secrets of the identity tables are sealed with the keys of a key file: one raw
key of 32 bytes, or a keyring, a JSON record of keys in base64, each under its
id, with the id of the key that new values are sealed with and the id of the key
that values without an envelope were sealed with. A value sealed today starts
with `MWK1` and the id of its key.

SHA-256, AES-GCM and the JSON reader are parameters (`Primitives`). Ids are
texts in a keyring and bytes in an envelope. The key of a box is the key itself,
where the source keeps the cipher made from it.

Results: `readKeyring_value`, `parseSecretBox_written`, `decrypt_extends`,
`decrypt_encrypt`, `decrypt_headed`.
-/
namespace Mossward.L3.Secrets

open Json (Value Codec Field members foldName)
open Table List Option

def identityKeyBytes : Nat := 32

def keyIDBytes : Nat := 8

def keyringVersion : Int := 1

/-- The nesting that `json.Unmarshal` takes. -/
def maxNestingDepth : Nat := 10000

/-- `MWK1`. -/
def ciphertextEnvelope : Bytes := [77, 87, 75, 49]

def nonceSize : Nat := 12

abbrev Nonce : Type := { nonce : Bytes // nonce.length = nonceSize }

abbrev IdentityKey : Type := { key : Bytes // key.length = identityKeyBytes }

/-- What the box is built on. -/
structure Primitives where
  sha256 : Bytes → Bytes
  sha256_length : ∀ data, (sha256 data).length = 32
  aeadSeal : IdentityKey → Nonce → Bytes → Bytes → Bytes
  aeadOpen : IdentityKey → Nonce → Bytes → Bytes → Option Bytes
  open_seal : ∀ key nonce plaintext associated,
    aeadOpen key nonce (aeadSeal key nonce plaintext associated) associated = some plaintext
  codec : Codec maxNestingDepth

section
variable (P : Primitives)

/-- Mirrors `secretbox.go:197-200`. -/
def identityKeyID (key : Bytes) : String := hexEncode ((P.sha256 key).take keyIDBytes)

theorem length_identityKeyID (key : Bytes) : (utf8 (identityKeyID P key)).length = keyIDBytes * 2 := by
  rw [identityKeyID, length_utf8_hexEncode, length_take, P.sha256_length]
  rfl

end

inductive BoxError
  | unsupported            -- neither a legacy key nor a supported keyring
  | invalidKey (id : String)
  | unavailable            -- the keyring references an unavailable key
deriving DecidableEq

inductive CipherError
  | unavailable            -- the key of the value is not in the box
  | truncated
  | unauthenticated
deriving DecidableEq

/-! ## The keyring -/

structure Keyring where
  version : Int
  activeID : String
  legacyID : String
  keys : SortedMap String String
deriving DecidableEq

namespace Keyring

def zero : Keyring := ⟨0, "", "", .empty⟩

/-- The record as `json.Marshal` and `json.MarshalIndent` see it. -/
def fields (ring : Keyring) : List Field :=
  [⟨"version", .num ring.version, false⟩, ⟨"active_id", .str ring.activeID, false⟩,
    ⟨"legacy_id", .str ring.legacyID, ring.legacyID = ""⟩,
    ⟨"keys", .obj (ring.keys.entries.map fun e => (e.1, .str e.2)), false⟩]

def value (ring : Keyring) : Value := .obj (members ring.fields)

end Keyring

/-- A text of the record; `null` leaves it as it is. -/
def readText (old : String) : Value → Option String
  | .str s => some s
  | .null => some old
  | _ => none

def readVersion (old : Int) : Value → Option Int
  | .num n => some n
  | .null => some old
  | _ => none

/-- An entry of the map; `null` is the empty text. -/
def readEntry (keys : SortedMap String String) (m : String × Value) : Option (SortedMap String String) :=
  (readText "" m.2).map fun s => keys.insert m.1 s

/-- Entries are added to those already read; `null` empties the map. -/
def readKeys (old : SortedMap String String) : Value → Option (SortedMap String String)
  | .obj ms => ms.foldlM readEntry old
  | .null => some .empty
  | _ => none

/-- One member of the record, its name compared without regard to case. -/
def readMember (ring : Keyring) (m : String × Value) : Option Keyring :=
  if foldName m.1 = foldName "version" then (readVersion ring.version m.2).map fun v => { ring with version := v }
  else if foldName m.1 = foldName "active_id" then
    (readText ring.activeID m.2).map fun s => { ring with activeID := s }
  else if foldName m.1 = foldName "legacy_id" then
    (readText ring.legacyID m.2).map fun s => { ring with legacyID := s }
  else if foldName m.1 = foldName "keys" then (readKeys ring.keys m.2).map fun ks => { ring with keys := ks }
  else some ring

def readKeyring : Value → Option Keyring
  | .obj ms => ms.foldlM readMember .zero
  | _ => none

theorem foldlM_readEntry (es : List (String × String)) (keys : SortedMap String String) :
    (es.map fun e => (e.1, Value.str e.2)).foldlM readEntry keys = some (keys.insertAll es) := by
  induction es generalizing keys with
  | nil => rfl
  | cons e es ih =>
    exact ih (keys.insert e.1 e.2)

theorem readKeys_written (keys : SortedMap String String) :
    readKeys .empty (.obj (keys.entries.map fun e => (e.1, .str e.2))) = some keys := by
  rw [readKeys, foldlM_readEntry, SortedMap.insertAll_entries]

section
variable (ring : Keyring)

theorem readMember_version (v : Int) :
    readMember ring ("version", .num v) = some { ring with version := v } := by
  rw [readMember, if_pos rfl]
  rfl

theorem readMember_activeID (s : String) :
    readMember ring ("active_id", .str s) = some { ring with activeID := s } := by
  rw [readMember, if_neg (by simp [foldName]), if_pos rfl]
  rfl

theorem readMember_legacyID (s : String) :
    readMember ring ("legacy_id", .str s) = some { ring with legacyID := s } := by
  rw [readMember, if_neg (by simp [foldName]), if_neg (by simp [foldName, Json.foldChar]), if_pos rfl]
  rfl

theorem readMember_keys (h : ring.keys = .empty) (keys : SortedMap String String) :
    readMember ring ("keys", .obj (keys.entries.map fun e => (e.1, .str e.2))) =
      some { ring with keys := keys } := by
  rw [readMember, if_neg (by simp [foldName]), if_neg (by simp [foldName]), if_neg (by simp [foldName]), if_pos rfl]
  rw [h, readKeys_written, map_some]

/-- **Round trip.** -/
theorem readKeyring_value : readKeyring ring.value = some ring := by
  by_cases hl : ring.legacyID = ""
  · have hm : members ring.fields = [("version", .num ring.version), ("active_id", .str ring.activeID),
        ("keys", .obj (ring.keys.entries.map fun e => (e.1, .str e.2)))] := by
      simp [members, Keyring.fields, hl]
    rw [Keyring.value, readKeyring, hm]
    simp only [foldlM_cons, readMember_version, readMember_activeID, bind_eq_bind, bind_some]
    have ho : Keyring.zero.legacyID = ring.legacyID := hl.symm
    rw [readMember_keys _ (by rfl), ho]
    rfl
  have hm : members ring.fields = [("version", .num ring.version), ("active_id", .str ring.activeID),
      ("legacy_id", .str ring.legacyID),
      ("keys", .obj (ring.keys.entries.map fun e => (e.1, .str e.2)))] := by
    simp [members, Keyring.fields, hl]
  rw [Keyring.value, readKeyring, hm]
  simp only [foldlM_cons, readMember_version, readMember_activeID, readMember_legacyID, bind_eq_bind, bind_some]
  rw [readMember_keys _ (by rfl)]
  rfl

theorem depth_value : ring.value.depth ≤ 2 := by
  apply Json.depth_members_le
  intro f hf
  simp only [Keyring.fields, mem_cons, not_mem_nil, or_false] at hf
  obtain rfl | rfl | rfl | rfl := hf
  all_goals simp only [Value.depth]
  all_goals try omega
  rw [Nat.add_le_add_iff_right, Json.membersDepth_le_iff]
  intro m hm
  obtain ⟨e, -, rfl⟩ := mem_map.mp hm
  exact Nat.le_refl _

end

/-! ## Boxes -/

/-- A box: the keys of a file, each under its id. The active and the legacy id
are among them. -/
structure SecretBox (P : Primitives) where
  activeID : String
  legacyID : String
  keys : List IdentityKey
  keyed : Keyed (fun key : IdentityKey => identityKeyID P key.1) keys
  active : activeID ∈ keys.map fun key => identityKeyID P key.1
  legacy : legacyID ∈ keys.map fun key => identityKeyID P key.1

section
variable {P : Primitives}

/-- The key whose id is these bytes. -/
def SecretBox.key? (box : SecretBox P) (id : Bytes) : Option IdentityKey :=
  box.keys.find? fun key => utf8 (identityKeyID P key.1) = id

/-- Id, payload and associated data of a value. Mirrors `secretbox.go:143-150`. -/
def SecretBox.ciphertextKey (box : SecretBox P) (ciphertext : Bytes) : Bytes × Bytes × Bytes :=
  let headerSize := ciphertextEnvelope.length + keyIDBytes * 2
  if headerSize ≤ ciphertext.length ∧ ciphertext.take ciphertextEnvelope.length = ciphertextEnvelope then
    ((ciphertext.take headerSize).drop ciphertextEnvelope.length, ciphertext.drop headerSize,
      ciphertext.take headerSize)
  else (utf8 box.legacyID, ciphertext, [])

/-- Mirrors `secretbox.go:112-124`. The nonce is drawn at random. -/
def SecretBox.encrypt (box : SecretBox P) (nonce : Nonce) (plaintext : Bytes) : Except CipherError Bytes :=
  match box.key? (utf8 box.activeID) with
  | none => .error .unavailable
  | some key =>
    let header := ciphertextEnvelope ++ utf8 box.activeID
    .ok (header ++ nonce.1 ++ P.aeadSeal key nonce plaintext header)

/-- The part of `Decrypt` behind the choice of the key. -/
def unsealPayload (P : Primitives) (key : IdentityKey) (payload associated : Bytes) : Except CipherError Bytes :=
  if h : nonceSize ≤ payload.length then
    match P.aeadOpen key ⟨payload.take nonceSize, by simp [h]⟩ (payload.drop nonceSize) associated with
    | none => .error .unauthenticated
    | some plaintext => .ok plaintext
  else .error .truncated

/-- Mirrors `secretbox.go:126-141`. -/
def SecretBox.decrypt (box : SecretBox P) (ciphertext : Bytes) : Except CipherError Bytes :=
  let (id, payload, associated) := box.ciphertextKey ciphertext
  match box.key? id with
  | none => .error .unavailable
  | some key => unsealPayload P key payload associated

variable {box : SecretBox P}

theorem SecretBox.key?_eq_some_iff {id : Bytes} {key : IdentityKey} :
    box.key? id = some key ↔ key ∈ box.keys ∧ utf8 (identityKeyID P key.1) = id := by
  constructor
  · intro h
    exact ⟨mem_of_find?_eq_some h, by simpa using find?_some h⟩
  · rintro ⟨hm, rfl⟩
    have hf := box.keyed.find?_eq hm
    rw [SecretBox.key?]
    simp only [utf8_inj]
    exact hf

theorem SecretBox.exists_active (box : SecretBox P) :
    ∃ key ∈ box.keys, identityKeyID P key.1 = box.activeID ∧ box.key? (utf8 box.activeID) = some key := by
  obtain ⟨key, hk, hi⟩ := mem_map.mp box.active
  exact ⟨key, hk, hi, SecretBox.key?_eq_some_iff.mpr ⟨hk, by rw [hi]⟩⟩

variable {ciphertext : Bytes}

theorem SecretBox.decrypt_eq {id pl associated : Bytes} {key : IdentityKey}
    (hp : box.ciphertextKey ciphertext = (id, pl, associated)) (hk : box.key? id = some key) :
    box.decrypt ciphertext = unsealPayload P key pl associated := by
  simp only [SecretBox.decrypt, hp, hk]

/-- The second box has the keys of the first and the same legacy id. -/
def SecretBox.Extends (box box' : SecretBox P) : Prop := box'.legacyID = box.legacyID ∧ box.keys ⊆ box'.keys

/-- **More keys open no less.** -/
theorem SecretBox.decrypt_extends {box' : SecretBox P} (h : box.Extends box') {plain : Bytes}
    (ho : box.decrypt ciphertext = .ok plain) : box'.decrypt ciphertext = .ok plain := by
  obtain ⟨hl, hke⟩ := h
  have hs : box'.ciphertextKey ciphertext = box.ciphertextKey ciphertext := by
    simp only [SecretBox.ciphertextKey, hl]
  unfold SecretBox.decrypt at ho ⊢
  rw [hs]
  dsimp only at ho ⊢
  cases hk : box.key? (box.ciphertextKey ciphertext).1 with
  | none => simp [hk] at ho
  | some key =>
    obtain ⟨hm, hi⟩ := SecretBox.key?_eq_some_iff.mp hk
    rw [SecretBox.key?_eq_some_iff.mpr ⟨hke hm, hi⟩]
    simpa [hk] using ho

/-- The envelope of a value names this key. -/
def Headed (id : String) (ciphertext : Bytes) : Prop :=
  ∃ payload, ciphertext = ciphertextEnvelope ++ utf8 id ++ payload ∧ (utf8 id).length = keyIDBytes * 2

theorem Headed.ne_nil {id : String} (h : Headed id ciphertext) : ciphertext ≠ [] := by
  obtain ⟨pl, rfl, -⟩ := h
  simp [ciphertextEnvelope]

theorem SecretBox.ciphertextKey_headed (box : SecretBox P) {id : String} (hi : (utf8 id).length = keyIDBytes * 2)
    (pl : Bytes) : box.ciphertextKey (ciphertextEnvelope ++ utf8 id ++ pl) =
      (utf8 id, pl, ciphertextEnvelope ++ utf8 id) := by
  have hh : (ciphertextEnvelope ++ utf8 id).length = ciphertextEnvelope.length + keyIDBytes * 2 := by
    rw [length_append, hi]
  have he : (ciphertextEnvelope ++ utf8 id ++ pl).take ciphertextEnvelope.length = ciphertextEnvelope := by
    rfl
  have ht : (ciphertextEnvelope ++ utf8 id ++ pl).take (ciphertextEnvelope.length + keyIDBytes * 2) =
      ciphertextEnvelope ++ utf8 id := take_left' hh
  have hd : (ciphertextEnvelope ++ utf8 id ++ pl).drop (ciphertextEnvelope.length + keyIDBytes * 2) =
      pl := drop_left' hh
  rw [SecretBox.ciphertextKey]
  rw [if_pos ⟨by rw [length_append]; omega, he⟩, ht, hd, drop_left' rfl]

theorem SecretBox.decrypt_headed {box' : SecretBox P} {id : String}
    (hh : Headed id ciphertext) (hk : box'.key? (utf8 id) = box.key? (utf8 id)) :
    box'.decrypt ciphertext = box.decrypt ciphertext := by
  obtain ⟨pl, rfl, hi⟩ := hh
  rw [SecretBox.decrypt, SecretBox.decrypt, box.ciphertextKey_headed hi, box'.ciphertextKey_headed hi]
  dsimp only
  rw [hk]

/-- **A box opens what it sealed**, and seals under an envelope that names the
active key. -/
theorem SecretBox.decrypt_encrypt (box : SecretBox P) (nonce : Nonce) (plain : Bytes) :
    ∃ ct, box.encrypt nonce plain = .ok ct ∧ Headed box.activeID ct ∧ box.decrypt ct = .ok plain := by
  obtain ⟨key, -, hi, hk⟩ := box.exists_active
  have hl : (utf8 box.activeID).length = keyIDBytes * 2 := by
    rw [← hi]
    exact length_identityKeyID P key.1
  have he : box.encrypt nonce plain = .ok (ciphertextEnvelope ++ utf8 box.activeID ++
      (nonce.1 ++ P.aeadSeal key nonce plain (ciphertextEnvelope ++ utf8 box.activeID))) := by
    simp only [SecretBox.encrypt, hk, append_assoc]
  refine ⟨_, he, ⟨_, rfl, hl⟩, ?_⟩
  rw [SecretBox.decrypt_eq (box.ciphertextKey_headed hl _) hk]
  have hn : nonceSize ≤ (nonce.1 ++ P.aeadSeal key nonce plain
      (ciphertextEnvelope ++ utf8 box.activeID)).length := by
    rw [length_append]
    omega
  rw [unsealPayload, dif_pos hn]
  simp only [take_left' nonce.2, drop_left' nonce.2, P.open_seal]

end

/-! ## From a key file to a box -/

section
variable (P : Primitives)

/-- Mirrors `secretbox.go:181-187`. -/
def decodeKeyring (data : Bytes) : Except BoxError Keyring :=
  match (P.codec.unmarshal data).bind readKeyring with
  | none => .error .unsupported
  | some ring =>
    if ring.version ≠ keyringVersion ∨ ring.keys.entries = [] then .error .unsupported else .ok ring

/-- One entry of a keyring. Mirrors `secretbox.go:163-167`. -/
def readKey (entry : String × String) : Except BoxError IdentityKey :=
  match Base64.decode entry.2 with
  | none => .error (.invalidKey entry.1)
  | some key =>
    if h : key.length = identityKeyBytes then
      if identityKeyID P key = entry.1 then .ok ⟨key, h⟩ else .error (.invalidKey entry.1)
    else .error (.invalidKey entry.1)

theorem readKey_eq_ok {entry : String × String} {key : IdentityKey} :
    readKey P entry = .ok key ↔ Base64.decode entry.2 = some key.1 ∧ identityKeyID P key.1 = entry.1 := by
  unfold readKey
  cases hde : Base64.decode entry.2 with
  | none => simp
  | some data =>
    dsimp only
    constructor
    · intro h
      split at h
      · split at h
        · cases h
          exact ⟨rfl, ‹_›⟩
        · cases h
      · cases h
    · rintro ⟨hd, hi⟩
      cases hd
      rw [dif_pos key.2, if_pos hi]

theorem readKeys_ids {es1 : List (String × String)} {keys : List IdentityKey}
    (h : es1.mapM (readKey P) = .ok keys) :
    (keys.map fun key => identityKeyID P key.1) = es1.map Prod.fst := by
  induction es1 generalizing keys with
  | nil =>
    cases h
    rfl
  | cons e es ih =>
    rw [mapM_cons] at h
    obtain ⟨key, hke, hr⟩ := bind_eq_ok.mp h
    obtain ⟨more, hm, hk⟩ := bind_eq_ok.mp hr
    cases hk
    rw [map_cons, map_cons, ih hm, ((readKey_eq_ok P).mp hke).2]

/-- Mirrors `secretbox.go:161-177`. -/
def Keyring.box (ring : Keyring) : Except BoxError (SecretBox P) :=
  match h : ring.keys.entries.mapM (readKey P) with
  | .error e => .error e
  | .ok keys =>
    if havailable : ring.activeID ∈ keys.map (fun key => identityKeyID P key.1) ∧
        ring.legacyID ∈ keys.map (fun key => identityKeyID P key.1) then
      .ok ⟨ring.activeID, ring.legacyID, keys,
        (by rw [Keyed, readKeys_ids P h]; exact ring.keys.keyed), havailable.1, havailable.2⟩
    else .error .unavailable

theorem Keyring.box_eq_ok {ring : Keyring} {box : SecretBox P} :
    ring.box P = .ok box ↔ ring.keys.entries.mapM (readKey P) = .ok box.keys ∧ box.activeID = ring.activeID ∧
      box.legacyID = ring.legacyID := by
  unfold Keyring.box
  constructor
  · intro h
    split at h
    · cases h
    split at h
    · cases h
      exact ⟨‹_›, rfl, rfl⟩
    · cases h
  · intro ⟨hk, ha, hl⟩
    obtain ⟨activeID, legacyID, keys, keyed, active, legacy⟩ := box
    subst ha hl
    split
    · rename_i e he
      rw [hk] at he
      cases he
    rename_i keys' hk'
    rw [hk] at hk'
    cases hk'
    rw [dif_pos ⟨active, legacy⟩]

theorem Keyring.exists_box {ring : Keyring} (hk : ∀ e ∈ ring.keys.entries, ∃ key, readKey P e = .ok key)
    (ha : ring.activeID ∈ ring.keys.entries.map Prod.fst)
    (hl : ring.legacyID ∈ ring.keys.entries.map Prod.fst) : ∃ box, ring.box P = .ok box := by
  obtain ⟨keys, hr⟩ := mapM_total hk
  have hi := readKeys_ids P hr
  refine ⟨⟨ring.activeID, ring.legacyID, keys, ?_, ?_, ?_⟩, (Keyring.box_eq_ok P).mpr ⟨hr, rfl, rfl⟩⟩
  · rw [Keyed, hi]
    exact ring.keys.keyed
  · rw [hi]
    exact ha
  · rw [hi]
    exact hl

/-- The box of a raw key. -/
def rawBox (key : IdentityKey) : SecretBox P :=
  ⟨identityKeyID P key.1, identityKeyID P key.1, [key], nodup_singleton _, by simp, by simp⟩

/-- Mirrors `secretbox.go:152-179`. -/
def parseSecretBox (data : Bytes) : Except BoxError (SecretBox P) :=
  if h : data.length = identityKeyBytes then .ok (rawBox P ⟨data, h⟩)
  else decodeKeyring P data >>= Keyring.box P

theorem decodeKeyring_written {ring : Keyring} (hv : ring.version = keyringVersion)
    (hk : ring.keys.entries ≠ []) {data : Bytes}
    (hda : data = P.codec.marshal ring.value ∨ data = P.codec.marshalIndent ring.value) :
    decodeKeyring P data = .ok ring := by
  have hd : ring.value.depth ≤ maxNestingDepth := (depth_value ring).trans (by decide)
  have hr : P.codec.unmarshal data = some ring.value := by
    obtain rfl | rfl := hda
    · exact P.codec.unmarshal_marshal _ hd
    · exact P.codec.unmarshal_marshalIndent _ hd
  rw [decodeKeyring, hr, bind_some, readKeyring_value]
  simp [hv, hk]

theorem lt_length_text {ring : Keyring} {e : String × String} (he : e ∈ ring.keys.entries) {key : IdentityKey}
    (hke : readKey P e = .ok key) : identityKeyBytes < ring.value.text.length := by
  obtain ⟨hd, -⟩ := (readKey_eq_ok P).mp hke
  have hc : identityKeyBytes ≤ e.2.toList.length := by
    rw [← key.2]
    exact Base64.length_decode_le hd
  have hen := Json.length_member_lt (mem_map_of_mem (f := fun e : String × String => (e.1, Value.str e.2)) he)
  have hk : ("keys", Value.obj (ring.keys.entries.map fun e => (e.1, Value.str e.2))) ∈ members ring.fields := by
    refine mem_map.mpr ⟨⟨"keys", _, false⟩, mem_filter.mpr ⟨?_, rfl⟩, rfl⟩
    simp [Keyring.fields]
  have hr := Json.length_member_lt hk
  have hs := Json.length_str_text e.2
  rw [Keyring.value]
  dsimp only at hen hr
  omega

/-- **A written keyring is read as a keyring.** -/
theorem parseSecretBox_written {ring : Keyring} (hv : ring.version = keyringVersion) {box : SecretBox P}
    (hb : ring.box P = .ok box) {data : Bytes}
    (hda : data = P.codec.marshal ring.value ∨ data = P.codec.marshalIndent ring.value) :
    data.length ≠ identityKeyBytes ∧ decodeKeyring P data = .ok ring ∧ parseSecretBox P data = .ok box := by
  obtain ⟨hr, -, -⟩ := (Keyring.box_eq_ok P).mp hb
  obtain ⟨key, hm, -, -⟩ := box.exists_active
  obtain ⟨e, he, hk⟩ := (mem_mapM_ok hr).mp hm
  have ht := lt_length_text P he hk
  have hl : data.length ≠ identityKeyBytes := by
    obtain rfl | rfl := hda
    · have := P.codec.length_marshal ring.value
      omega
    · have := P.codec.length_marshalIndent ring.value
      omega
  have hd := decodeKeyring_written P hv (ne_nil_of_mem he) hda
  refine ⟨hl, hd, ?_⟩
  rw [parseSecretBox, dif_neg hl, hd]
  exact hb

/-- Mirrors `secretbox.go:49-52`. -/
def validateIdentityKeyData (data : Bytes) : Except BoxError Unit :=
  (parseSecretBox P data).map fun _ => ()

end

/-! ## A small instance -/

/-- Primitives that can be evaluated: the digest is the start of the data, and
a sealed value is the value. -/
def smallPrimitives : Primitives where
  sha256 data := (data ++ replicate 32 0).take 32
  sha256_length data := by simp
  aeadSeal _ _ plaintext _ := plaintext
  aeadOpen _ _ ciphertext _ := some ciphertext
  open_seal _ _ _ _ := rfl
  codec := .plain maxNestingDepth

def smallKey (b : UInt8) : IdentityKey := ⟨replicate 32 b, rfl⟩

end Mossward.L3.Secrets
