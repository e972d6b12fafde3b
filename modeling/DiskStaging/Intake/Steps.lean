import DiskStaging.Intake.Basic
import DiskStaging.Sniff
import DiskStaging.Transfer

/-!
# The steps of an intake

An intake is driven step by step. `info` opens the object and classifies the image;
the phase that it leads to names the transfer to do next, into scratch space for a
container format and straight into a file for a raw image. A step that goes wrong
leads to the error phase and reports why; a step in the wrong phase is refused and
changes nothing.
-/

set_option autoImplicit false

namespace DiskStaging

/-- What a step led to: the phase, and the fault in the error phase. -/
structure PhaseResult where
  phase : Phase
  fault : Option Fault := none
  deriving Repr, Inhabited

/-- Whether an import may go on. -/
def PhaseResult.ok (result : PhaseResult) : Bool := result.phase.ok

namespace Intake

variable {σ : Type}

/-! ## Phases -/

/-- Checks that an intake is in the phase that an operation needs. -/
def checkPhase (intake : Intake) (operation : Operation) (wanted : Option Phase) :
    Except Fault Unit :=
  if intake.phase = wanted then .ok ()
  else .error (.wrongPhase operation wanted intake.name intake.phase)

/-- The intake in the next phase. -/
def advance (intake : Intake) (phase : Phase) (state : σ) : Ending (Intake × σ) PhaseResult :=
  .ok { phase } ({ intake with phase := some phase }, state)

/-- The intake in the error phase. -/
def fail (intake : Intake) (fault : Fault) (state : σ) : Ending (Intake × σ) PhaseResult :=
  .ok ⟨.error, some fault⟩ ({ intake with phase := some .error }, state)

/-! ## Opening and classifying -/

/-- The phase after classifying an image. -/
def nextPhase (format : ImageFormat) : Phase :=
  if format.needsScratch then .transferScratch else .transferDataFile

/-- What classifying reports when it meets a fault: a fault of the import as it is. -/
def readFault (intake : Intake) (fault : Fault) : Fault :=
  if fault.isA .importer then fault else .readFailed intake.name fault

/-- The content to read: what the intake holds, or that of the object. -/
def openContent (intake : Intake) : Act Cloud Content := fun cloud =>
  match intake.holding with
  | .held content => .ok content cloud
  | _ =>
    match intake.client.fetch intake.location.bucket intake.location.key cloud with
    | .error fault cloud => .error (.openFailed intake.name fault) cloud
    | .ok source cloud => .ok (.ofSource source) cloud

/-- Opens the object and classifies the image it holds. Content that is no image is
let go. -/
def info : Act (Intake × Cloud) PhaseResult := fun (intake, cloud) =>
  if intake.closed then .error (.infoAfterClose intake.name) (intake, cloud)
  else match intake.checkPhase .info none with
    | .error fault => .error fault (intake, cloud)
    | .ok () =>
      match intake.openContent cloud with
      | .error fault cloud => intake.fail fault cloud
      | .ok content cloud =>
        match sniff sniffSize content with
        | .error fault content =>
          let closed := Ending.state (Content.close content)
          { intake with holding := .released closed.source }.fail (intake.readFault fault) cloud
        | .ok ⟨format, compression⟩ content =>
          { intake with holding := .held content, format := some format, compression }.advance
            (nextPhase format) cloud

/-! ## Transfers -/

/-- The end of a transfer: the image is now in the file at a path. -/
def finish (intake : Intake) (path : Path) (written : Nat) (phase : Phase) (files : FileTree) :
    Ending (Intake × FileTree) PhaseResult :=
  let intake := { intake with written }
  match Url.parse path.render with
  | .error why => .error (.url why) (intake, files)
  | .ok url => { intake with url }.advance phase files

/-- A transfer of what is left of the content. A fault of the import leads to the
error phase; any other one is raised. -/
def transferWith (operation : Operation) (wanted next : Phase)
    (copy : {σ : Type} → Reader σ → Act (FileTree × σ) (Path × Nat)) :
    Act (Intake × FileTree) PhaseResult := fun (intake, files) =>
  match intake.checkPhase operation (some wanted) with
  | .error fault => .error fault (intake, files)
  | .ok () =>
    match intake.holding with
    | .held ⟨streams⟩ =>
      match copy (Streams.reader _ (Fin.last _)) (files, streams) with
      | .error fault (files, streams) =>
        let intake := { intake with holding := .held ⟨streams⟩ }
        if fault.isA .importer then intake.fail fault files else .error fault (intake, files)
      | .ok (path, written) (files, streams) =>
        { intake with holding := .held ⟨streams⟩ }.finish path written next files
    | _ => intake.fail (.sourceClosed intake.name) files

/-- Copies the image into the staging file of a scratch directory. -/
def transfer (scratch : Path) : Act (Intake × FileTree) PhaseResult := fun (intake, files) =>
  transferWith .transfer .transferScratch .convert
    (fun reader => streamToScratch reader scratch intake.chunk) (intake, files)

/-- Copies the image straight into a file. -/
def transferFile (path : Path) : Act (Intake × FileTree) PhaseResult := fun (intake, files) =>
  transferWith .transferFile .transferDataFile .resize
    (fun reader => do
      let written ← streamToFile reader path intake.chunk
      pure (path, written)) (intake, files)

/-! ## Closing -/

/-- Closes an intake, and the content that it holds. -/
def close : Act Intake Unit := fun intake =>
  let intake := { intake with closed := true }
  match intake.holding with
  | .held content =>
    Ending.inside (fun content : Content =>
      { intake with holding := .released content.source }) (Content.close content)
  | _ => .ok () intake

/-- Somebody else closes the source that an intake reads or has read. -/
def closeSource : Act Intake Unit := fun intake =>
  match intake.holding with
  | .nothing => .ok () intake
  | .held content =>
    Ending.inside (fun content : Content => { intake with holding := .held content })
      (Content.closeSource content)
  | .released source =>
    Ending.inside (fun source : Source => { intake with holding := .released source })
      (Source.close source)

end Intake

end DiskStaging
