import Mossward.Core.Utf8
import Mossward.L1Encoding.Names

/-!
# Strings as bytes

The functions of `strings` and `bufio` for texts that come from outside and need
not be UTF-8, such as files of the kernel.
-/
namespace Mossward.L1.ByteText

open Utf8 L1.Names

/-! ## Pieces of a string -/

/-- `strings.Fields`. -/
def fields (s : Bytes) : List Bytes := (((pieces s).splitOnP fun p => isSpace p.1).map flatten).filter (· ≠ [])

/-- `strings.Trim` with one byte to cut off. -/
def trim (b : UInt8) (s : Bytes) : Bytes := (s.dropWhile (· = b)).rdropWhile (· = b)

/-- `strings.Cut` at a byte: what stands before the first one and after it. -/
def cut (separator : UInt8) (s : Bytes) : Option (Bytes × Bytes) :=
  if separator ∈ s then some (s.takeWhile (· ≠ separator), (s.dropWhile (· ≠ separator)).drop 1) else none

/-! ## Lines -/

/-- The longest line, with its end, that a `bufio.Scanner` holds. -/
def maxScanTokenSize : Nat := 65536

/-- `dropCR`. -/
def dropCR (line : Bytes) : Bytes := if line.getLast? = some 0x0d then line.dropLast else line

/-- The lines a `bufio.Scanner` gives; `none` if one of them is too long. The
text after the last line end is a line if it is not empty. -/
def scanLines (s : Bytes) : Option (List Bytes) :=
  let parts := s.splitOn 0x0a
  let lines := if parts.getLast? = some [] then parts.dropLast else parts
  if lines.all (·.length < maxScanTokenSize) then some (lines.map dropCR) else none

end Mossward.L1.ByteText
