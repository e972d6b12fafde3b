/-!
# Phases of an import

An import goes through phases, and each names the step to run next. A container
format is staged in scratch space and then converted; a raw image is written to
its place and then resized. The error phase is the end.
-/

set_option autoImplicit false

namespace DiskStaging

/-- What the last step of an import led to. -/
inductive Phase where
  | error
  | transferScratch
  | transferDataFile
  | convert
  | resize
  deriving DecidableEq, Repr, Inhabited

namespace Phase

/-- All phases, in the order of their declaration. -/
def all : List Phase := [.error, .transferScratch, .transferDataFile, .convert, .resize]

/-- The value by which a phase is reported. -/
def value : Phase → String
  | .error => "Error"
  | .transferScratch => "TransferScratch"
  | .transferDataFile => "TransferDataFile"
  | .convert => "Convert"
  | .resize => "Resize"

/-- The name of the phase as a constant. -/
def name : Phase → String
  | .error => "ERROR"
  | .transferScratch => "TRANSFER_SCRATCH"
  | .transferDataFile => "TRANSFER_DATA_FILE"
  | .convert => "CONVERT"
  | .resize => "RESIZE"

/-- The phase with the given value. -/
def ofValue? (value : String) : Option Phase := all.find? fun phase => phase.value = value

/-- Whether an import may go on from a phase. -/
def ok (phase : Phase) : Bool := phase ≠ .error

theorem ofValue?_value (phase : Phase) : ofValue? phase.value = some phase := by
  cases phase <;> decide

end Phase

/-- The value of a phase that may not have been entered yet. -/
def phaseText : Option Phase → String
  | some phase => phase.value
  | none => "None"

end DiskStaging
