import Mathlib.Data.List.Basic
import Mathlib.Tactic

/-!
# Base64

The padded base64 of Go's `base64.StdEncoding`: three bytes become four
characters, a last group of one or two bytes is padded with `=`. The reader
skips line ends and does not ask the bits behind a padding to be zero.

Results:
* `length_decode_le`: the bytes read are no more than the characters.
* `decode_encode`.
-/
namespace Mossward.Base64

open Option

def alphabet : List Char :=
  "ABCDEFGHIJKLMNOPQRSTUVWXYZabcdefghijklmnopqrstuvwxyz0123456789+/".toList

def symbol (n : Nat) : Char := alphabet.getD n '='

def value (c : Char) : Option Nat := alphabet.findIdx? (· = c)

/-! ## Writing -/

/-- The two, three or four symbols of a group of one, two or three bytes. -/
def encodeBytes : List UInt8 → List Char
  | [] => []
  | [a] => [symbol (a.toNat / 4), symbol (a.toNat % 4 * 16), '=', '=']
  | [a, b] =>
    [symbol (a.toNat / 4), symbol (a.toNat % 4 * 16 + b.toNat / 16), symbol (b.toNat % 16 * 4), '=']
  | a :: b :: c :: rest =>
    symbol (a.toNat / 4) :: symbol (a.toNat % 4 * 16 + b.toNat / 16) ::
      symbol (b.toNat % 16 * 4 + c.toNat / 64) :: symbol (c.toNat % 64) :: encodeBytes rest

def encode (data : List UInt8) : String := String.ofList (encodeBytes data)

/-! ## Reading -/

def byte (n : Nat) : UInt8 := UInt8.ofNat n

/-- One full group. -/
def decodeGroup (x y z w : Char) : Option (List UInt8) := do
  let p ← value x
  let q ← value y
  let r ← value z
  let s ← value w
  return [byte (p * 4 + q / 16), byte (q % 16 * 16 + r / 4), byte (r % 4 * 64 + s)]

/-- The last group, which may be padded. -/
def decodeLast (x y z w : Char) : Option (List UInt8) :=
  if w = '=' then
    if z = '=' then do
      let p ← value x
      let q ← value y
      return [byte (p * 4 + q / 16)]
    else do
      let p ← value x
      let q ← value y
      let r ← value z
      return [byte (p * 4 + q / 16), byte (q % 16 * 16 + r / 4)]
  else decodeGroup x y z w

def decodeChars : List Char → Option (List UInt8)
  | [] => some []
  | [x, y, z, w] => decodeLast x y z w
  | x :: y :: z :: w :: rest => do
    let group ← decodeGroup x y z w
    let more ← decodeChars rest
    return group ++ more
  | _ => none

def isLineEnd (c : Char) : Bool := c = '\r' || c = '\n'

def decode (s : String) : Option (List UInt8) := decodeChars (s.toList.filter fun c => !isLineEnd c)

/-! ## The alphabet -/

theorem value_symbol {n : Nat} (h : n < 64) : value (symbol n) = some n := by
  have ha : ∀ m : Fin 64, value (symbol m) = some m.1 := by decide +kernel
  exact ha ⟨n, h⟩

theorem symbol_plain {n : Nat} (h : n < 64) : symbol n ≠ '=' ∧ isLineEnd (symbol n) = false := by
  have ha : ∀ m : Fin 64, symbol m ≠ '=' ∧ isLineEnd (symbol m) = false := by decide +kernel
  exact ha ⟨n, h⟩

theorem byte_toNat {n : Nat} {b : UInt8} (h : n = b.toNat) : byte n = b := by
  subst h
  exact UInt8.ofNat_toNat

/-! ## Round trip -/

section
variable (a b c : UInt8)

theorem decodeGroup_symbols : decodeGroup (symbol (a.toNat / 4)) (symbol (a.toNat % 4 * 16 + b.toNat / 16))
      (symbol (b.toNat % 16 * 4 + c.toNat / 64)) (symbol (c.toNat % 64)) = some [a, b, c] := by
  have ha := a.toNat_lt
  have hb := b.toNat_lt
  have hc := c.toNat_lt
  simp only [decodeGroup, value_symbol (show a.toNat / 4 < 64 by omega),
    value_symbol (show a.toNat % 4 * 16 + b.toNat / 16 < 64 by omega),
    value_symbol (show b.toNat % 16 * 4 + c.toNat / 64 < 64 by omega),
    value_symbol (show c.toNat % 64 < 64 by omega), bind_eq_bind, bind_some, pure_def]
  rw [byte_toNat (b := a) (by omega), byte_toNat (b := b) (by omega), byte_toNat (b := c) (by omega)]

theorem decodeLast_one :
    decodeLast (symbol (a.toNat / 4)) (symbol (a.toNat % 4 * 16)) '=' '=' = some [a] := by
  have ha := a.toNat_lt
  simp only [decodeLast, if_true, value_symbol (show a.toNat / 4 < 64 by omega),
    value_symbol (show a.toNat % 4 * 16 < 64 by omega), bind_eq_bind, bind_some, pure_def]
  rw [byte_toNat (b := a) (by omega)]

theorem decodeLast_two :
    decodeLast (symbol (a.toNat / 4)) (symbol (a.toNat % 4 * 16 + b.toNat / 16)) (symbol (b.toNat % 16 * 4)) '=' =
      some [a, b] := by
  have ha := a.toNat_lt
  have hb := b.toNat_lt
  have hz : symbol (b.toNat % 16 * 4) ≠ '=' := (symbol_plain (by omega)).1
  simp only [decodeLast, if_true, if_neg hz, value_symbol (show a.toNat / 4 < 64 by omega),
    value_symbol (show a.toNat % 4 * 16 + b.toNat / 16 < 64 by omega),
    value_symbol (show b.toNat % 16 * 4 < 64 by omega), bind_eq_bind, bind_some, pure_def]
  rw [byte_toNat (b := a) (by omega), byte_toNat (b := b) (by omega)]

end

variable {data : List UInt8}

theorem encodeBytes_eq_nil (h : encodeBytes data = []) : data = [] := by
  cases data using encodeBytes.fun_cases <;> simp_all [encodeBytes]

theorem decodeChars_encodeBytes (data : List UInt8) : decodeChars (encodeBytes data) = some data := by
  induction data using encodeBytes.induct with
  | case1 => rfl
  | case2 a => exact decodeLast_one a
  | case3 a b => exact decodeLast_two a b
  | case4 a b c rest ih =>
    rw [encodeBytes]
    cases hr : encodeBytes rest with
    | nil =>
      -- the last group is full: it is read without looking for a padding
      have hw : symbol (c.toNat % 64) ≠ '=' := (symbol_plain (by omega)).1
      rw [encodeBytes_eq_nil hr, decodeChars, decodeLast, if_neg hw]
      exact decodeGroup_symbols a b c
    | cons x xs =>
      rw [hr] at ih
      rw [decodeChars, decodeGroup_symbols, ih]
      · rfl
      · simp

theorem encodeBytes_noLineEnd (data : List UInt8) : ∀ c ∈ encodeBytes data, isLineEnd c = false := by
  induction data using encodeBytes.induct with
  | case1 => simp [encodeBytes]
  | case2 a =>
    have ha := a.toNat_lt
    simp only [encodeBytes, List.forall_mem_cons]
    exact ⟨(symbol_plain (by omega)).2, (symbol_plain (by omega)).2, rfl, rfl, by simp⟩
  | case3 a b =>
    have ha := a.toNat_lt
    have hb := b.toNat_lt
    simp only [encodeBytes, List.forall_mem_cons]
    exact ⟨(symbol_plain (by omega)).2, (symbol_plain (by omega)).2, (symbol_plain (by omega)).2, rfl, by simp⟩
  | case4 a b c rest ih =>
    have ha := a.toNat_lt
    have hb := b.toNat_lt
    have hc := c.toNat_lt
    simp only [encodeBytes, List.forall_mem_cons]
    exact ⟨(symbol_plain (by omega)).2, (symbol_plain (by omega)).2, (symbol_plain (by omega)).2,
      (symbol_plain (by omega)).2, ih⟩

/-- **Round trip.** -/
theorem decode_encode (data : List UInt8) : decode (encode data) = some data := by
  have hp : (encodeBytes data).filter (fun c => !isLineEnd c) = encodeBytes data := by
    apply List.filter_eq_self.mpr
    intro c hc
    simp [encodeBytes_noLineEnd data c hc]
  rw [decode, encode, String.toList_ofList, hp, decodeChars_encodeBytes]

/-! ## Length -/

theorem length_decodeGroup_le {x y z w : Char} (h : decodeGroup x y z w = some data) : data.length ≤ 3 := by
  simp only [decodeGroup, bind_eq_bind, bind_eq_some_iff, pure_def, some.injEq] at h
  obtain ⟨_, _, _, _, _, _, _, _, rfl⟩ := h
  simp

theorem length_decodeLast_le {x y z w : Char} (h : decodeLast x y z w = some data) : data.length ≤ 3 := by
  unfold decodeLast at h
  split at h
  · split at h <;>
      simp only [bind_eq_bind, bind_eq_some_iff, pure_def, some.injEq] at h
    · obtain ⟨_, _, _, _, rfl⟩ := h
      simp
    · obtain ⟨_, _, _, _, _, _, rfl⟩ := h
      simp
  · exact length_decodeGroup_le h

theorem length_decodeChars_le {cs : List Char} (h : decodeChars cs = some data) :
    data.length ≤ cs.length := by
  induction cs using decodeChars.induct generalizing data with
  | case1 =>
    simp only [decodeChars, some.injEq] at h
    simp [← h]
  | case2 x y z w =>
    have := length_decodeLast_le h
    simp only [List.length_cons]
    omega
  | case3 x y z w rest hr ih =>
    rw [decodeChars] at h
    · simp only [bind_eq_bind, bind_eq_some_iff, pure_def, some.injEq] at h
      obtain ⟨group, hg, more, hm, rfl⟩ := h
      have hf := length_decodeGroup_le hg
      have ho := ih hm
      simp only [List.length_append, List.length_cons]
      omega
    · exact hr
  | case4 cs h1 h2 h3 =>
    rw [decodeChars] at h
    · cases h
    all_goals assumption

theorem length_decode_le {s : String} (h : decode s = some data) : data.length ≤ s.toList.length :=
  (length_decodeChars_le h).trans (List.length_filter_le _ _)

end Mossward.Base64
