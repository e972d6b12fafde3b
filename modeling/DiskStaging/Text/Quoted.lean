import DiskStaging.Bytes
import DiskStaging.Text.Printable

/-!
# Quoted text and bytes

Messages show text that came from outside in quotes, so that its ends and its
unprintable characters can be seen. Text stands in single quotes, or in double
quotes if it holds a single quote and no double one. A backslash starts an
escape; the quote itself, line ends, tabs and unprintable characters are escaped.
-/

set_option autoImplicit false

namespace DiskStaging.Text

/-- The hexadecimal digits of a number, at least `width` of them. -/
def hexDigits (width value : Nat) : List Char :=
  let digits := Nat.toDigits 16 value
  List.replicate (width - digits.length) '0' ++ digits

/-- The quote to put around the given characters. -/
def quoteFor (text : List Char) : Char :=
  if text.contains '\'' && !text.contains '"' then '"' else '\''

/-- The escapes that quoted text and quoted bytes share. -/
def escape? (quote c : Char) : Option (List Char) :=
  if c = quote || c = '\\' then some ['\\', c]
  else if c = '\n' then some ['\\', 'n']
  else if c = '\r' then some ['\\', 'r']
  else if c = '\t' then some ['\\', 't']
  else none

/-- A character as it stands in quoted text. -/
def escapeChar (quote c : Char) : List Char :=
  (escape? quote c).getD <|
    if isPrintable c then [c]
    else if c.toNat < 0x100 then ['\\', 'x'] ++ hexDigits 2 c.toNat
    else if c.toNat < 0x10000 then ['\\', 'u'] ++ hexDigits 4 c.toNat
    else ['\\', 'U'] ++ hexDigits 8 c.toNat

/-- Text in quotes. -/
def quoted (text : String) : String :=
  let quote := quoteFor text.toList
  String.ofList ([quote] ++ text.toList.flatMap (escapeChar quote) ++ [quote])

/-- A byte as it stands in quoted bytes. -/
def escapeByte (quote : Char) (byte : UInt8) : List Char :=
  let c := Char.ofNat byte.toNat
  (escape? quote c).getD <|
    if 0x20 ≤ byte && byte < 0x7F then [c] else ['\\', 'x'] ++ hexDigits 2 byte.toNat

/-- Bytes in quotes, marked by the letter b in front of them. -/
def quotedBytes (bytes : Bytes) : String :=
  let quote := quoteFor (bytes.map fun byte => Char.ofNat byte.toNat)
  String.ofList (['b', quote] ++ bytes.flatMap (escapeByte quote) ++ [quote])

end DiskStaging.Text
