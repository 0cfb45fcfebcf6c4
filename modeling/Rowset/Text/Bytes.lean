import Rowset.Text.Integer

/-!
# Text: bytes

A byte string as hexadecimal digits, and as the UTF-8 form of a text.
-/

namespace Rowset.Text

/-- Writes two hexadecimal digits for each byte. -/
def hexOfBytes (bytes : List UInt8) : String :=
  String.join (bytes.map fun b => hex 2 b.toNat)

/-- Reads pairs of hexadecimal digits as bytes. -/
def bytesOfHex? : List Char → Option (List UInt8)
  | [] => some []
  | high :: low :: rest => do
    let h ← hexValue? high
    let l ← hexValue? low
    let bytes ← bytesOfHex? rest
    pure (UInt8.ofNat (16 * h + l) :: bytes)
  | [_] => none

/-- The UTF-8 form of a text. -/
def toUtf8 (s : String) : List UInt8 :=
  s.toUTF8.toList

/-- The text of which the bytes are the UTF-8 form. -/
def ofUtf8? (bytes : List UInt8) : Option String :=
  String.fromUTF8? ⟨bytes.toArray⟩

/-- The low bytes of a number, the most significant first. -/
def bigEndian (width n : Nat) : List UInt8 :=
  (List.range width).reverse.map fun i => UInt8.ofNat (n / Nat.pow 256 i % 256)

/-- The number that bytes stand for, the most significant first. -/
def ofBigEndian (bytes : List UInt8) : Nat :=
  bytes.foldl (fun n b => 256 * n + b.toNat) 0

/-- The two's complement of an integer in `width` bytes, the most significant first. -/
def bigEndianInt (width : Nat) (n : Int) : List UInt8 :=
  bigEndian width (n % (Nat.pow 256 width : Int)).toNat

/-- The integer of which the bytes are the two's complement, the most significant first. -/
def ofBigEndianInt (bytes : List UInt8) : Int :=
  (ofBigEndian bytes : Int).bmod (Nat.pow 256 bytes.length)

end Rowset.Text
