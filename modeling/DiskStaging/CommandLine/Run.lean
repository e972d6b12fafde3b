import DiskStaging.CommandLine.Arguments
import DiskStaging.Intake.Session

/-!
# Running the command

The command sets up an intake, classifies the image, does the transfer that this
asks for and reports the phase. The intake is closed in any case before the command
ends, and a fault of closing is reported like any other one, in place of an earlier
one.
-/

set_option autoImplicit false

namespace DiskStaging.CommandLine

/-- What the command prints, and the status that it ends with. -/
structure Report where
  status : Nat
  output : String := ""
  errors : String := ""
  deriving DecidableEq, Repr, Inhabited

/-- The command after it has run. -/
structure Outcome where
  report : Report
  cloud : Cloud
  files : FileTree
  /-- The intake, if it could be set up. -/
  intake : Option Intake := none

/-- The backend that a source is fetched from if none is named. -/
def backendOf (source : String) : Backend :=
  if "gs://".toList.isPrefixOf source.toList then .gcs else .s3

/-- What the intake is set up from. -/
def Arguments.settings (arguments : Arguments) : IntakeSettings where
  backend := arguments.backend.getD (backendOf arguments.source)
  endpoint := arguments.source
  accessKey := arguments.accessKey
  secretKey := arguments.secretKey
  certDir := arguments.certDir
  account := arguments.serviceAccountKey
  chunk := some defaultChunkSize

/-- The phase that a step led to. The error phase raises its fault. -/
def checked (result : PhaseResult) : Act Session Phase :=
  match result.fault with
  | some fault => throw fault
  | none => pure result.phase

/-- Classifies the image and does the transfer that this asks for. Gives the phase
and the place of the image. -/
def stage (arguments : Arguments) : Act Session (Phase × String) := do
  let phase ← checked (← Session.onCloud Intake.info)
  let result ←
    if phase = .transferScratch then
      Session.onFiles (Intake.transfer (.parse arguments.scratchDir))
    else Session.onFiles (Intake.transferFile (.parse arguments.dest))
  let phase ← checked result
  return (phase, (← get).intake.url.render)

/-- What the command prints after a success. -/
def success (phase : Phase) (place : String) : Report where
  status := 0
  output := "Phase: " ++ phase.value ++ "\n"
  errors := "Image written to: " ++ place ++ "\n"

/-- What the command prints for a fault. Where the traceback of a verbose run would
stand, it says so. -/
def faultText (verbose : Bool) (fault : Fault) : String :=
  if fault.isA .library then
    "Error: Missing dependency: " ++ fault.message ++
      "\nInstall with: pip install disk-importer[all]\n"
  else "Error: " ++ fault.message ++ "\n" ++ if verbose then "[traceback]\n" else ""

/-- A report of a fault behind what was printed before. -/
def Report.failed (report : Report) (verbose : Bool) (fault : Fault) : Report :=
  { report with status := 1, errors := report.errors ++ faultText verbose fault }

/-- The report of a session that was left, and the fault that is to be reported. -/
def staged (ending : Ending Session (Phase × String)) : Report × Option Fault :=
  match ending with
  | .ok (phase, place) _ => (success phase place, none)
  | .error fault _ => ({ status := 0 }, some fault)

/-- Runs the command with the given arguments. -/
def run (arguments : Arguments) (cloud : Cloud) (files : FileTree) : Outcome :=
  match Intake.create arguments.settings cloud with
  | .error fault cloud =>
    { report := ({ status := 0 } : Report).failed arguments.verbose fault, cloud, files }
  | .ok intake cloud =>
    let ending := stage arguments ⟨intake, cloud, files⟩
    let (report, fault) := staged ending
    match Session.onIntake Intake.close (Ending.state ending) with
    | .error late ⟨intake, cloud, files⟩ =>
      { report := report.failed arguments.verbose late, cloud, files, intake }
    | .ok () ⟨intake, cloud, files⟩ =>
      { report := match fault with
          | some fault => report.failed arguments.verbose fault
          | none => report
        cloud, files, intake }

end DiskStaging.CommandLine
