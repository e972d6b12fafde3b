import DiskStaging.Bytes

/-!
# Text as UTF-8 bytes

Encoding is that of the standard library. Decoding accepts any bytes: where they
are not well-formed, the longest part that could have started a character is
read as one replacement character.
-/

set_option autoImplicit false

namespace DiskStaging.Text

/-- The bytes of a text in UTF-8. -/
def utf8 (text : List Char) : Bytes := text.flatMap String.utf8EncodeChar

/-- What is read in place of bytes that are not well-formed. -/
def replacement : Char := Char.ofNat 0xFFFD

/-- Whether a byte can only continue a character. -/
def continues (byte : UInt8) : Bool := 0x80 ≤ byte && byte ≤ 0xBF

/-- The low six bits of a byte that continues a character. -/
def payload (byte : UInt8) : Nat := byte.toNat % 64

/-- Whether `second` can follow `first`, which starts a character of three or
four bytes. This rules out surrogates, characters beyond the last one, and
characters that have a shorter form. -/
def secondFits (first second : UInt8) : Bool :=
  if first = 0xE0 then 0xA0 ≤ second && second ≤ 0xBF
  else if first = 0xED then 0x80 ≤ second && second ≤ 0x9F
  else if first = 0xF0 then 0x90 ≤ second && second ≤ 0xBF
  else if first = 0xF4 then 0x80 ≤ second && second ≤ 0x8F
  else continues second

/-- The first character of the given bytes, and how many bytes behind the first
one belong to it. -/
def firstChar (first : UInt8) (rest : Bytes) : Char × Nat :=
  let head := first.toNat
  if first < 0x80 then (Char.ofNat head, 0)
  else if 0xC2 ≤ first && first ≤ 0xDF then
    match rest with
    | second :: _ =>
      if continues second then (Char.ofNat (head % 32 * 64 + payload second), 1)
      else (replacement, 0)
    | [] => (replacement, 0)
  else if 0xE0 ≤ first && first ≤ 0xEF then
    match rest with
    | second :: third :: _ =>
      if secondFits first second then
        if continues third then
          (Char.ofNat (head % 16 * 4096 + payload second * 64 + payload third), 2)
        else (replacement, 1)
      else (replacement, 0)
    | [second] => (replacement, if secondFits first second then 1 else 0)
    | [] => (replacement, 0)
  else if 0xF0 ≤ first && first ≤ 0xF4 then
    match rest with
    | second :: third :: fourth :: _ =>
      if secondFits first second then
        if continues third then
          if continues fourth then
            (Char.ofNat (head % 8 * 262144 + payload second * 4096 + payload third * 64 +
              payload fourth), 3)
          else (replacement, 2)
        else (replacement, 1)
      else (replacement, 0)
    | [second, third] =>
      (replacement, if secondFits first second then if continues third then 2 else 1 else 0)
    | [second] => (replacement, if secondFits first second then 1 else 0)
    | [] => (replacement, 0)
  else (replacement, 0)

/-- The text that the bytes are read as. -/
def ofUtf8 : Bytes → List Char
  | [] => []
  | first :: rest =>
    let (c, more) := firstChar first rest
    c :: ofUtf8 (rest.drop more)
termination_by bytes => bytes.length
decreasing_by simp only [List.length_drop, List.length_cons]; omega

end DiskStaging.Text
