import DiskStaging.Text.Utf8

/-!
# Percent encoding

In a URL, a percent sign and two hexadecimal digits stand for a byte, and bytes
spell text in UTF-8. Decoding leaves a percent sign alone that no two digits
follow. Only characters of the ASCII range take part: a run of them is decoded
on its own, so that escaped bytes never join with a character outside.
-/

set_option autoImplicit false

namespace DiskStaging.Text

/-- The value of a hexadecimal digit. -/
def hexValue? (c : Char) : Option Nat :=
  if '0' ≤ c ∧ c ≤ '9' then some (c.toNat - 48)
  else if 'a' ≤ c ∧ c ≤ 'f' then some (c.toNat - 87)
  else if 'A' ≤ c ∧ c ≤ 'F' then some (c.toNat - 55)
  else none

/-- Whether a character is in the ASCII range. -/
def isAscii (c : Char) : Bool := c.toNat < 128

namespace Percent

/-- The bytes that percent encoded text stands for. -/
def decodeBytes : List Char → Bytes
  | '%' :: high :: low :: rest =>
    match hexValue? high, hexValue? low with
    | some high, some low => UInt8.ofNat (16 * high + low) :: decodeBytes rest
    | _, _ => utf8 ['%'] ++ decodeBytes (high :: low :: rest)
  | c :: rest => utf8 [c] ++ decodeBytes rest
  | [] => []

/-- The text that percent encoded text stands for. -/
def decode (text : List Char) : List Char :=
  match text with
  | [] => []
  | c :: rest =>
    if isAscii c then
      ofUtf8 (decodeBytes (c :: rest.takeWhile isAscii)) ++ decode (rest.dropWhile isAscii)
    else c :: decode rest
termination_by text.length
decreasing_by
  · exact Nat.lt_succ_of_le (List.dropWhile_suffix _).length_le
  · simp

/-- Whether every percent sign introduces two hexadecimal digits. -/
def wellFormed : List Char → Bool
  | '%' :: high :: low :: rest =>
    (hexValue? high).isSome && (hexValue? low).isSome && wellFormed (high :: low :: rest)
  | '%' :: _ => false
  | _ :: rest => wellFormed rest
  | [] => true

end Percent

end DiskStaging.Text
