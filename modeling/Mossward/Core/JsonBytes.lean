import Mossward.Core.Bytes
import Mossward.Core.Json

/-!
# JSON in files

Reading and writing of values as bytes. What a reader makes of bytes that no
writer wrote is left open (ill-formed UTF-8, numbers with a fraction); what was
written is read back.

Results:
* `Codec.plain`: the codec that writes the plain text and reads well-formed
  UTF-8 only.
* `length_member_lt`, `length_str_text`: a text is longer than its parts.
* `Codec`.
-/
namespace Mossward.Json

open List

/-- `limit` is the nesting that the reader takes. -/
structure Codec (limit : Nat) where
  unmarshal : Bytes → Option Value
  marshal : Value → Bytes
  marshalIndent : Value → Bytes
  unmarshal_marshal : ∀ v, v.depth ≤ limit → unmarshal (marshal v) = some v
  unmarshal_marshalIndent : ∀ v, v.depth ≤ limit → unmarshal (marshalIndent v) = some v
  length_marshal : ∀ v, v.text.length ≤ (marshal v).length
  length_marshalIndent : ∀ v, v.text.length ≤ (marshalIndent v).length

/-! ## A codec -/

def readUtf8 (limit : Nat) (data : Bytes) : Option Value :=
  (String.fromUTF8? (ByteArray.mk data.toArray)).bind fun s => parse limit s.toList

theorem readUtf8_utf8 (limit : Nat) (s : String) : readUtf8 limit (utf8 s) = parse limit s.toList := by
  have hb : ByteArray.mk (utf8 s).toArray = s.toByteArray := by
    simp [utf8]
  have hr : String.fromUTF8? s.toByteArray = some s := by
    rw [String.fromUTF8?, dif_pos s.isValidUTF8]
    rfl
  rw [readUtf8, hb, hr, Option.bind_some]

theorem readUtf8_text {limit : Nat} {v : Value} (h : v.depth ≤ limit) :
    readUtf8 limit (utf8 (String.ofList v.text)) = some v := by
  rw [readUtf8_utf8, String.toList_ofList, parse_text h]

def Codec.plain (limit : Nat) : Codec limit where
  unmarshal := readUtf8 limit
  marshal v := utf8 (String.ofList v.text)
  marshalIndent v := utf8 (String.ofList v.text)
  unmarshal_marshal _ := readUtf8_text
  unmarshal_marshalIndent _ := readUtf8_text
  length_marshal v := length_le_length_utf8 v.text
  length_marshalIndent v := length_le_length_utf8 v.text

/-! ## Length of texts -/

theorem length_le_length_separated {ls : List (List Char)} {l : List Char} (h : l ∈ ls) :
    l.length ≤ (separated ls).length := by
  induction ls using separated.induct with
  | case1 => cases h
  | case2 x =>
    rw [mem_singleton.mp h, separated]
  | case3 x xs hn ih =>
    rw [separated]
    · simp only [length_append, length_cons]
      rcases mem_cons.mp h with rfl | hx
      · omega
      · have := ih hx
        omega
    · exact hn

theorem length_member_lt {ms : List (String × Value)} {m : String × Value} (h : m ∈ ms) :
    m.2.text.length < (Value.obj ms).text.length := by
  have hm : memberText m ∈ memberTexts ms := by
    rw [memberTexts_eq]
    exact mem_map_of_mem h
  have hl := length_le_length_separated hm
  have hv : m.2.text.length ≤ (memberText m).length := by
    simp only [memberText, length_append, length_cons]
    omega
  simp only [Value.text, length_append, length_cons]
  omega

theorem length_str_text (s : String) : s.toList.length + 2 ≤ (Value.str s).text.length := by
  have h := length_le_flatMap_escape s.toList
  simp only [Value.text, quote, length_append, length_cons]
  omega

end Mossward.Json
