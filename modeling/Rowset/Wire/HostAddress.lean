import Rowset.Text.Integer
import Rowset.Text.Split

/-!
# The wire: addresses of hosts

A host is addressed by four bytes, which are written in decimal with points between them, or by
eight groups of sixteen bits, which are written in hexadecimal with colons between them. One run of
zero groups may be left out where two colons stand, and the last two groups may be written as four
bytes.
-/

namespace Rowset.Wire.HostAddress

open Text (splitAt)

/-- Holds of the decimal texts of a byte, which have no zero before them. -/
def isByte (cs : List Char) : Bool :=
  (cs.length == 1 || cs.head? != some '0') && (Text.readNat? cs).any (· < 256)

/-- Holds of the addresses of four bytes. -/
def isDotted (cs : List Char) : Bool :=
  let parts := splitAt '.' cs
  parts.length == 4 && parts.all isByte

/-- Holds of the hexadecimal texts of a group. -/
def isGroup (cs : List Char) : Bool :=
  1 ≤ cs.length && cs.length ≤ 4 && cs.all fun c => (Text.hexValue? c).isSome

/-- How many groups the last part of an address stands for. -/
def lastCount? (part : List Char) : Option Nat :=
  if isGroup part then some 1 else if isDotted part then some 2 else none

/-- How many groups the parts up to the end of an address stand for. -/
def endCount? : List (List Char) → Option Nat
  | [] => some 0
  | [part] => lastCount? part
  | part :: parts => if isGroup part then (endCount? parts).map (1 + ·) else none

/-- The parts between colons. -/
def parts (cs : List Char) : List (List Char) :=
  if cs.isEmpty then [] else splitAt ':' cs

/-- Splits a text at its first pair of colons. -/
def splitGap? : List Char → Option (List Char × List Char)
  | [] => none
  | ':' :: ':' :: cs => some ([], cs)
  | c :: cs => (splitGap? cs).map fun (before, behind) => (c :: before, behind)

/-- Holds of the addresses of eight groups; where groups are left out, at least one is. -/
def isGrouped (cs : List Char) : Bool :=
  match splitGap? cs with
  | none => endCount? (parts cs) == some 8
  | some (before, behind) =>
    (parts before).all isGroup &&
      (endCount? (parts behind)).any fun count => (parts before).length + count ≤ 7

/-- **Holds of the addresses of hosts.** -/
def isValid (cs : List Char) : Bool :=
  isDotted cs || isGrouped cs

end Rowset.Wire.HostAddress
