import DiskStaging.Intake.Steps

/-!
# Sessions

A session is an intake together with what it works on: the cloud that it fetches
from and the files that it writes. All steps of an intake are actions on sessions.
-/

set_option autoImplicit false

namespace DiskStaging

/-- An intake and what it works on. -/
structure Session where
  intake : Intake
  cloud : Cloud
  files : FileTree

/-- What can be done with an intake. -/
inductive Step where
  | info
  | transfer (scratch : Path)
  | transferFile (path : Path)
  | close
  /-- Comes into the scope of the intake. -/
  | enter
  /-- Leaves the scope of the intake, which closes it. -/
  | exit
  deriving DecidableEq, Repr

namespace Session

variable {α : Type}

/-- An action of the intake on the cloud. -/
def onCloud (act : Act (Intake × Cloud) α) : Act Session α := fun ⟨intake, cloud, files⟩ =>
  Ending.inside (fun (intake, cloud) => ⟨intake, cloud, files⟩) (act (intake, cloud))

/-- An action of the intake on the files. -/
def onFiles (act : Act (Intake × FileTree) α) : Act Session α := fun ⟨intake, cloud, files⟩ =>
  Ending.inside (fun (intake, files) => ⟨intake, cloud, files⟩) (act (intake, files))

/-- An action of the intake alone. -/
def onIntake (act : Act Intake α) : Act Session α := fun ⟨intake, cloud, files⟩ =>
  Ending.inside (fun intake => ⟨intake, cloud, files⟩) (act intake)

/-- Does a step. Only `info` and the transfers lead to a phase. -/
def perform : Step → Act Session (Option PhaseResult)
  | .info => some <$> onCloud Intake.info
  | .transfer scratch => some <$> onFiles (Intake.transfer scratch)
  | .transferFile path => some <$> onFiles (Intake.transferFile path)
  | .close | .exit => (fun () => none) <$> onIntake Intake.close
  | .enter => pure none

end Session

end DiskStaging
