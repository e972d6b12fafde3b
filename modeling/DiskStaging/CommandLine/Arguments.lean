import DiskStaging.Fault
import DiskStaging.Text.Split

/-!
# Command line arguments

Options are written with two dashes. An option that takes a value takes it from
behind an equals sign, or else from the next argument, whatever that is. Two dashes
alone end the options. Options and the source may come in any order; of an option
that is given twice, the last value counts.
-/

set_option autoImplicit false

namespace DiskStaging.CommandLine

open Text

/-- The options that take a value. -/
inductive Setting where
  | backend
  | accessKey
  | secretKey
  | certDir
  | serviceAccountKey
  | scratchDir
  | dest
  deriving DecidableEq, Repr

/-- The options. -/
inductive Flag where
  | setting (which : Setting)
  | verbose
  | help
  deriving DecidableEq, Repr

/-- What is wrong with the arguments. -/
inductive UsageFault where
  | noSuchOption (name : String)
  | missingValue (name : String)
  | unexpectedValue (name : String)
  | badBackend (text : String)
  | missingSource
  | extraArgument (text : String)
  deriving DecidableEq, Repr

/-- The wording of each fault. -/
def UsageFault.message : UsageFault → String
  | .noSuchOption name => "No such option: " ++ name
  | .missingValue name => "Option " ++ name ++ " needs a value"
  | .unexpectedValue name => "Option " ++ name ++ " takes no value"
  | .badBackend text => "The backend must be s3 or gcs, not " ++ text
  | .missingSource => "The source is missing"
  | .extraArgument text => "Unexpected argument: " ++ text

/-- The option of a name. -/
def flag? : String → Option Flag
  | "--backend" => some (.setting .backend)
  | "--access-key" => some (.setting .accessKey)
  | "--secret-key" => some (.setting .secretKey)
  | "--cert-dir" => some (.setting .certDir)
  | "--service-account-key" => some (.setting .serviceAccountKey)
  | "--scratch-dir" => some (.setting .scratchDir)
  | "--dest" => some (.setting .dest)
  | "--verbose" => some .verbose
  | "--help" => some .help
  | _ => none

/-- What was found on a command line. -/
structure Given where
  /-- The values of options, the latest one first. -/
  values : List (Setting × String) := []
  verbose : Bool := false
  help : Bool := false
  /-- The arguments that are no options. -/
  others : List String := []
  deriving DecidableEq, Repr

/-- The last value of an option. -/
def Given.value? (given : Given) (which : Setting) : Option String := given.values.lookup which

/-- Whether an argument is one option or several. -/
def isOption (argument : String) : Bool :=
  match argument.toList with
  | '-' :: _ :: _ => true
  | _ => false

/-- The name of an option and the value behind its equals sign. -/
def cutOption (argument : String) : String × Option String :=
  match cut? '=' argument.toList with
  | some (name, value) => (String.ofList name, some (String.ofList value))
  | none => (argument, none)

/-- Takes an argument for options of one letter each: only the one for a verbose run
has a letter. -/
def takeLetters (given : Given) (argument : String) : Except UsageFault Given :=
  match argument.toList with
  | '-' :: '-' :: _ => .error (.noSuchOption argument)
  | _ :: letters =>
    if letters.all (· = 'v') then .ok { given with verbose := true }
    else .error (.noSuchOption argument)
  | [] => .error (.noSuchOption argument)

/-- Takes all arguments. -/
def take (given : Given) : List String → Except UsageFault Given
  | [] => .ok given
  | argument :: rest =>
    if argument = "--" then .ok { given with others := given.others ++ rest }
    else if !isOption argument then
      take { given with others := given.others ++ [argument] } rest
    else
      let (name, value) := cutOption argument
      match flag? name, value, rest with
      | some (.setting which), some value, rest =>
        take { given with values := (which, value) :: given.values } rest
      | some (.setting which), none, value :: rest =>
        take { given with values := (which, value) :: given.values } rest
      | some (.setting _), none, [] => .error (.missingValue name)
      | some _, some _, _ => .error (.unexpectedValue name)
      | some .verbose, none, rest => take { given with verbose := true } rest
      | some .help, none, rest => take { given with help := true } rest
      | none, _, rest => do take (← takeLetters given argument) rest
termination_by arguments => arguments.length

/-- What a command line asks for. -/
structure Arguments where
  source : String
  /-- The backend, if it is not to be told by the source. -/
  backend : Option Backend
  accessKey : String
  secretKey : String
  certDir : String
  serviceAccountKey : String
  scratchDir : String
  dest : String
  verbose : Bool
  deriving DecidableEq, Repr

/-- The backend of a name. -/
def backend? : String → Option Backend
  | "s3" => some .s3
  | "gcs" => some .gcs
  | _ => none

/-- The backend that the arguments name, if they name any. -/
def Given.backend (given : Given) : Except UsageFault (Option Backend) :=
  match given.value? .backend with
  | none => .ok none
  | some name =>
    match backend? name with
    | some backend => .ok (some backend)
    | none => .error (.badBackend name)

/-- What the arguments that were found ask for. -/
def Given.arguments (given : Given) : Except UsageFault Arguments := do
  match given.others with
  | [] => .error .missingSource
  | [source] =>
    let backend ← given.backend
    return {
      source, backend
      accessKey := (given.value? .accessKey).getD ""
      secretKey := (given.value? .secretKey).getD ""
      certDir := (given.value? .certDir).getD ""
      serviceAccountKey := (given.value? .serviceAccountKey).getD ""
      scratchDir := (given.value? .scratchDir).getD "."
      dest := (given.value? .dest).getD "disk.img"
      verbose := given.verbose }
  | _ :: extra :: _ => .error (.extraArgument extra)

end DiskStaging.CommandLine
