import DiskStaging.Text.Split

/-!
# Paths

A path starts at the working directory or at the root and names one thing after
the other. Slashes separate the names; doubled slashes, slashes at the end and
names that stand for the directory itself make no difference and are dropped. Two
slashes in front, and only two, are kept. Names that stand for the directory above
stay, since what they lead to depends on the files.
-/

set_option autoImplicit false

namespace DiskStaging

open Text

/-- Where a path starts. -/
inductive Anchor where
  /-- At the working directory. -/
  | here
  | root
  /-- At the root, written with two slashes. -/
  | doubleRoot
  deriving DecidableEq, Repr, Inhabited

/-- How an anchor is written. -/
def Anchor.text : Anchor → String
  | .here => ""
  | .root => "/"
  | .doubleRoot => "//"

/-- A path. -/
structure Path where
  anchor : Anchor
  names : List String
  deriving DecidableEq, Repr, Inhabited

namespace Path

/-- The anchor of a path with that many slashes in front. -/
def anchorOf : Nat → Anchor
  | 0 => .here
  | 2 => .doubleRoot
  | _ => .root

/-- Whether a piece of a path names anything. -/
def isName (piece : List Char) : Bool := piece ≠ [] && piece ≠ ['.']

/-- Reads a path. -/
def parse (text : String) : Path where
  anchor := anchorOf (text.toList.takeWhile (· = '/')).length
  names := ((pieces '/' text.toList).filter isName).map String.ofList

/-- Writes a path. -/
def render (path : Path) : String :=
  let text := path.anchor.text ++ "/".intercalate path.names
  if text.isEmpty then "." else text

/-- The path of a name inside the directory at a path. -/
def child (path : Path) (name : String) : Path := { path with names := path.names ++ [name] }

/-- Cuts a path into the path of the directory and the last name, if there is one. -/
def last? (path : Path) : Option (Path × String) :=
  path.names.getLast?.map fun name => ({ path with names := path.names.dropLast }, name)

end Path

end DiskStaging
