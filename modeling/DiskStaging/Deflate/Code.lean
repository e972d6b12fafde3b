/-!
# Prefix codes given by code lengths

A deflate block states only how long the code of each symbol is. Codes of one
length are consecutive numbers in the order of their symbols, and shorter codes
come before longer ones, so the lengths determine the code.

A code is read bit by bit (`Code.step`): after `length` bits the number read so
far either falls among the codes of that length or lies beyond them.
-/

set_option autoImplicit false

namespace DiskStaging.Deflate

/-- No code is longer than this. -/
def longestCode : Nat := 15

/-- A prefix code: how many codes there are of each length, and the symbols in
the order of their codes. -/
structure Code where
  counts : Array Nat
  symbols : Array Nat
  /-- The greatest length in use, and 1 for a code without symbols. -/
  longest : Nat

namespace Code

/-- How many symbols have a code of this length. -/
def countOf (lengths : List Nat) (length : Nat) : Nat :=
  lengths.countP (· == length)

/-- The symbols whose codes have this length, in ascending order. -/
def symbolsOf (lengths : List Nat) (length : Nat) : List Nat :=
  lengths.zipIdx.filterMap fun (other, symbol) => if other = length then some symbol else none

/-- The code with the given length for each symbol; a length of 0 means no code. -/
def ofLengths (lengths : List Nat) : Code where
  counts := ((List.range (longestCode + 1)).map (countOf lengths)).toArray
  symbols := ((List.range longestCode).flatMap fun i => symbolsOf lengths (i + 1)).toArray
  longest := max 1 (lengths.foldl max 0)

/-- The codes of the greatest length that are left unused, or none when the
lengths ask for more codes than there are. -/
def spare (lengths : List Nat) : Option Nat :=
  (List.range longestCode).foldl
    (fun left i => left.bind fun spare =>
      let count := countOf lengths (i + 1)
      if count ≤ 2 * spare then some (2 * spare - count) else none)
    (some 1)

/-- Whether the lengths describe a code that a block may use: every code is
used, or there is no symbol at all, or, where `lone` allows it, no code is
longer than one bit. -/
def usable (lengths : List Nat) (lone : Bool) : Bool :=
  lengths.all (· == 0) ||
    match spare lengths with
    | none => false
    | some 0 => true
    | some _ => lone && lengths.all (· ≤ 1)

/-- A code that has been read in part: the number its bits spell with the next
bit still 0, the least code of its length, the symbols with shorter codes, and
its length with the next bit. -/
structure Walk where
  code : Nat
  first : Nat
  index : Nat
  length : Nat

/-- Nothing has been read yet. -/
def Walk.start : Walk := ⟨0, 0, 0, 1⟩

/-- What one more bit leads to. -/
inductive Found where
  | symbol (value : Nat)
  | more (walk : Walk)
  | nothing

/-- Reads one more bit of a code. -/
def step (c : Code) (walk : Walk) (bit : Nat) : Found :=
  let code := walk.code + bit
  let count := c.counts.getD walk.length 0
  if code < walk.first + count then
    .symbol (c.symbols.getD (walk.index + (code - walk.first)) 0)
  else if walk.length < c.longest then
    .more ⟨2 * code, 2 * (walk.first + count), walk.index + count, walk.length + 1⟩
  else .nothing

end Code

end DiskStaging.Deflate
