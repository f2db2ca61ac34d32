import Mossward.Core.Bytes

/-!
# Runes of a byte string

A byte string is read rune by rune as `utf8.DecodeRune` does: a byte that begins
no valid encoding stands for U+FFFD and is one byte wide.
-/
namespace Mossward.Utf8

open List

def runeError : Char := Char.ofNat 0xfffd

def continues (b : UInt8) : Bool := 0x80 ≤ b && b ≤ 0xbf

/-- The range of the second byte after the first one, which keeps overlong
encodings, surrogates and values beyond U+10FFFF out. -/
def secondRange (first : UInt8) : UInt8 × UInt8 :=
  if first = 0xe0 then (0xa0, 0xbf)
  else if first = 0xed then (0x80, 0x9f)
  else if first = 0xf0 then (0x90, 0xbf)
  else if first = 0xf4 then (0x80, 0x8f)
  else (0x80, 0xbf)

def second (first b : UInt8) : Bool := (secondRange first).1 ≤ b && b ≤ (secondRange first).2

/-- `utf8.DecodeRune` of a string that is not empty: the rune and its width. -/
def decodeRune (first : UInt8) (rest : Bytes) : Char × Nat :=
  if first < 0x80 then (Char.ofNat first.toNat, 1)
  else if first < 0xc2 then (runeError, 1)
  else if first < 0xe0 then
    match rest with
    | b :: _ =>
      if second first b then (Char.ofNat (first.toNat % 32 * 64 + b.toNat % 64), 2) else (runeError, 1)
    | _ => (runeError, 1)
  else if first < 0xf0 then
    match rest with
    | b :: c :: _ =>
      if second first b && continues c then
        (Char.ofNat ((first.toNat % 16 * 64 + b.toNat % 64) * 64 + c.toNat % 64), 3)
      else (runeError, 1)
    | _ => (runeError, 1)
  else if first < 0xf5 then
    match rest with
    | b :: c :: d :: _ =>
      if second first b && continues c && continues d then
        (Char.ofNat (((first.toNat % 8 * 64 + b.toNat % 64) * 64 + c.toNat % 64) * 64 + d.toNat % 64), 4)
      else (runeError, 1)
    | _ => (runeError, 1)
  else (runeError, 1)

/-- A rune with the bytes it was read from. -/
abbrev Piece := Char × Bytes

/-- The pieces of a string; every piece takes a byte, so `fuel` is the number of
bytes. -/
def piecesFrom : Nat → Bytes → List Piece
  | 0, _ => []
  | _, [] => []
  | fuel + 1, b :: s =>
    let (c, width) := decodeRune b s
    (c, (b :: s).take width) :: piecesFrom fuel ((b :: s).drop width)

def pieces (s : Bytes) : List Piece := piecesFrom s.length s

/-- The bytes of pieces. -/
def flatten (ps : List Piece) : Bytes := ps.flatMap (·.2)

def encode (c : Char) : Bytes := String.utf8EncodeChar c

/-- `strings.Map`; `none` drops the rune. A byte that is no rune is replaced by
what U+FFFD becomes. -/
def mapRunes (f : Char → Option Char) (s : Bytes) : Bytes :=
  (pieces s).flatMap fun p => ((f p.1).map encode).getD []

end Mossward.Utf8
