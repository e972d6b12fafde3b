import DiskStaging.Files.FileTree
import DiskStaging.Stream.Reader

/-!
# Copying streams into files

Everything that is left of a stream goes into a file, which is created or loses
what it held. When something goes wrong on the way, the file keeps what was
copied until then.
-/

set_option autoImplicit false

namespace DiskStaging

/-- The name of the file in scratch space that an image is staged in. -/
def stagingName : String := "tmpimage"

/-- The path of the file that an image is staged in. -/
def stagingPath (scratch : Path) : Path := scratch.child stagingName

/-- How many bytes are copied at a time if nothing else is asked for. -/
def defaultChunkSize : Int := 16777216

variable {σ : Type}

/-- Copies what is left of a stream into the file at a path, and gives the number of
bytes. -/
def streamToFile (reader : Reader σ) (path : Path) (chunk : Option Int) :
    Act (FileTree × σ) Nat := fun (files, state) =>
  match files.openFile path with
  | .error why => .error (.copy path.render (.file path.render why)) (files, state)
  | .ok place =>
    let poured := reader.pour (sizeAsked chunk) #[] state
    let written := files.write place poured.content.toList
    match poured.fault with
    | some fault => .error (.copy path.render fault) (written, poured.state)
    | none => .ok poured.content.size (written, poured.state)

/-- Copies what is left of a stream into the staging file of a scratch directory. -/
def streamToScratch (reader : Reader σ) (scratch : Path) (chunk : Option Int) :
    Act (FileTree × σ) (Path × Nat) := fun (files, state) =>
  match files.isDirectory scratch with
  | .error why => .error (.file scratch.render why) (files, state)
  | .ok false => .error (.notScratch scratch.render) (files, state)
  | .ok true =>
    match streamToFile reader (stagingPath scratch) chunk (files, state) with
    | .error fault after => .error fault after
    | .ok written after => .ok (stagingPath scratch, written) after

end DiskStaging
