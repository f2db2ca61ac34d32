import Mossward.Core.Text

/-!
# Bytes of texts

Results:
* `utf8_inj`: the bytes of a text determine it.
* `length_utf8_hexEncode`: hexadecimal digits take one byte each.
* `hexDecode_hexEncode`: what was written in hexadecimal is read back.
-/
namespace Mossward

open List

abbrev Bytes : Type := List UInt8

instance lawfulBEqBytes : LawfulBEq Bytes := inferInstance

def utf8 (s : String) : Bytes := s.toByteArray.data.toList

theorem utf8_inj {s t : String} : utf8 s = utf8 t ↔ s = t := by
  constructor
  · intro h
    have hd : s.toByteArray.data = t.toByteArray.data := Array.toList_inj.mp h
    exact String.toByteArray_inj.mp (ByteArray.ext hd)
  · intro h
    rw [h]

theorem utf8_append (s t : String) : utf8 (s ++ t) = utf8 s ++ utf8 t := by
  simp [utf8]

theorem utf8_ofList (cs : List Char) : utf8 (String.ofList cs) = cs.flatMap String.utf8EncodeChar := by
  simp [utf8, utf8Encode]

theorem length_utf8_ascii {cs : List Char} (h : ∀ c ∈ cs, c.utf8Size = 1) :
    (utf8 (String.ofList cs)).length = cs.length := by
  rw [utf8_ofList]
  induction cs with
  | nil => rfl
  | cons c cs ih =>
    have hc := h c mem_cons_self
    have hcs := ih fun c' hc' => h c' (mem_cons_of_mem _ hc')
    simp only [flatMap_cons, length_append, String.length_utf8EncodeChar, length_cons]
    omega

theorem length_le_length_utf8 (cs : List Char) : cs.length ≤ (utf8 (String.ofList cs)).length := by
  rw [utf8_ofList]
  induction cs with
  | nil => exact Nat.zero_le _
  | cons c cs ih =>
    have hc := c.utf8Size_pos
    simp only [flatMap_cons, length_append, String.length_utf8EncodeChar, length_cons]
    omega

/-! ## Hexadecimal digits -/

def hexDigits (b : UInt8) : List Char := [Nat.digitChar (b.toNat / 16), Nat.digitChar (b.toNat % 16)]

def hexEncode (data : Bytes) : String := String.ofList (data.flatMap hexDigits)

/-- `hex.DecodeString`: the bytes up to the first fault, and whether there was
none. -/
def hexDecode : List Char → Bytes × Bool
  | [] => ([], true)
  | [_] => ([], false)
  | a :: b :: rest =>
    match hexValue a, hexValue b with
    | some high, some low => (UInt8.ofNat (high * 16 + low) :: (hexDecode rest).1, (hexDecode rest).2)
    | _, _ => ([], false)

theorem hexDecode_hexEncode (data : Bytes) : hexDecode (hexEncode data).toList = (data, true) := by
  rw [hexEncode, String.toList_ofList]
  induction data with
  | nil => rfl
  | cons b data ih =>
    have hl := b.toNat_lt
    have hb : UInt8.ofNat (b.toNat / 16 * 16 + b.toNat % 16) = b := by
      rw [Nat.div_add_mod']
      exact UInt8.ofNat_toNat
    rw [flatMap_cons, hexDigits, cons_append, cons_append, nil_append, hexDecode,
      hexValue_digitChar (by omega), hexValue_digitChar (by omega), ih]
    dsimp only
    rw [hb]

theorem utf8Size_digitChar {d : Nat} (h : d < 16) : (Nat.digitChar d).utf8Size = 1 := by
  have ha : ∀ d : Fin 16, (Nat.digitChar d).utf8Size = 1 := by decide
  exact ha ⟨d, h⟩

theorem length_utf8_hexEncode (data : Bytes) : (utf8 (hexEncode data)).length = 2 * data.length := by
  have ha : ∀ c ∈ data.flatMap hexDigits, c.utf8Size = 1 := by
    intro c hc
    obtain ⟨b, -, hb⟩ := mem_flatMap.mp hc
    have hl := b.toNat_lt
    simp only [hexDigits, mem_cons, not_mem_nil, or_false] at hb
    obtain rfl | rfl := hb <;> exact utf8Size_digitChar (by omega)
  rw [hexEncode, length_utf8_ascii ha]
  induction data with
  | nil => rfl
  | cons b data ih =>
    rw [flatMap_cons, length_append, ih fun c hc => ha c (by simp [hc])]
    simp only [hexDigits, length_cons, length_nil]
    omega

end Mossward
