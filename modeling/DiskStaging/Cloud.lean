import DiskStaging.Fault
import DiskStaging.Stream.Source

/-!
# Object storage

Objects are fetched through clients. A client is built by the library of its
backend, or handed in ready made. The cloud stands for all that is outside: the
objects that there are, the libraries that are installed, and a record of what was
asked of them.
-/

set_option autoImplicit false

namespace DiskStaging

/-- An object and the source that its content comes from. -/
structure Object where
  bucket : String
  key : String
  source : Source
  deriving Repr, Inhabited

/-- What becomes of the attempt to use the library of a backend. -/
inductive Library where
  | installed
  | missing
  /-- Building a client raises a fault. -/
  | refusing (fault : Fault)
  deriving Repr, Inhabited

/-- How a client signs what it asks for and finds buckets. -/
structure Signing where
  region : String
  version : String
  addressing : String
  deriving DecidableEq, Repr

/-- What is asked of the client libraries. What is left blank is left to them. -/
inductive Call where
  | s3Client (service accessKey secretKey certDir : Option String) (signing : Signing)
  | s3Object (bucket key : String)
  | gcsClient (service : Option String)
  | gcsAccountClient (keyFile : String) (service : Option String)
  | gcsObject (bucket key : String)
  deriving DecidableEq, Repr

/-- What a client is built from. For Google's storage, the access key is the path of
a service account key, and the other keys do not count. -/
structure ClientSettings where
  service : String := ""
  accessKey : String := ""
  secretKey : String := ""
  certDir : String := ""
  deriving DecidableEq, Repr, Inhabited

/-- All that is outside. -/
structure Cloud where
  objects : List Object := []
  /-- What fetching any object raises. -/
  failure : Option Fault := none
  library : Backend → Library := fun _ => .installed
  /-- The objects that were asked for, by bucket and key, the latest one first. -/
  requests : List (String × String) := []
  /-- What was asked of the libraries, the latest call first. -/
  calls : List Call := []
  /-- What ready-made clients were asked for with, the latest one first. -/
  handedOut : List ClientSettings := []

/-! ## Clients -/

/-- What objects are fetched through. -/
inductive Client where
  /-- A client that was handed in ready made. -/
  | readyMade
  /-- A client that the library of a backend built. -/
  | ofLibrary (backend : Backend)
  deriving DecidableEq, Repr, Inhabited

namespace Cloud

/-- The source of an object. -/
def fetch (bucket key : String) : Act Cloud Source := fun cloud =>
  let asked := { cloud with requests := (bucket, key) :: cloud.requests }
  match cloud.failure with
  | some fault => .error fault asked
  | none =>
    match cloud.objects.find? fun object => object.bucket = bucket && object.key = key with
    | none => .error (.noObject bucket key) asked
    | some object => .ok object.source asked

/-- Records a call to a library. -/
def record (call : Call) : Act Cloud Unit := fun cloud =>
  .ok () { cloud with calls := call :: cloud.calls }

end Cloud

/-- How a client asks its library for an object. -/
def Client.call? (bucket key : String) : Client → Option Call
  | .readyMade => none
  | .ofLibrary .s3 => some (.s3Object bucket key)
  | .ofLibrary .gcs => some (.gcsObject bucket key)

/-- The source of an object, through a client. -/
def Client.fetch (client : Client) (bucket key : String) : Act Cloud Source := do
  match client.call? bucket key with
  | none => pure ()
  | some call => Cloud.record call
  Cloud.fetch bucket key

/-! ## Building clients -/

/-- A text, unless it is blank. -/
def unlessBlank (text : String) : Option String := if text.isEmpty then none else some text

/-- How requests to S3 are signed. -/
def s3Signing : Signing := ⟨"us-east-1", "s3v4", "path"⟩

/-- Checks that a service is a web address with a host. -/
def checkService (service : String) : Except Fault Unit :=
  if service.isEmpty then .ok ()
  else match Url.parse service with
    | .error why => .error (.url why)
    | .ok url =>
      if (url.scheme = "http" || url.scheme = "https") && !url.netloc.isEmpty then .ok ()
      else .error (.badService service)

/-- The call that builds a client. -/
def ClientSettings.call (settings : ClientSettings) : Backend → Call
  | .s3 => .s3Client (unlessBlank settings.service) (unlessBlank settings.accessKey)
      (unlessBlank settings.secretKey) (unlessBlank settings.certDir) s3Signing
  | .gcs =>
    if settings.accessKey.isEmpty then .gcsClient (unlessBlank settings.service)
    else .gcsAccountClient settings.accessKey (unlessBlank settings.service)

/-- Builds a client with the library of a backend. -/
def createClient (backend : Backend) (settings : ClientSettings) : Act Cloud Client :=
  fun cloud =>
    let asked := { cloud with calls := settings.call backend :: cloud.calls }
    match cloud.library backend, checkService settings.service with
    | .missing, _ => .error (.noLibrary backend) cloud
    | _, .error fault => .error fault cloud
    | .installed, .ok () => .ok (.ofLibrary backend) asked
    | .refusing fault, .ok () =>
      .error (.libraryRefused backend settings.service fault) asked

/-- Where clients come from. -/
inductive ClientFactory where
  /-- From the library of the backend. -/
  | library
  /-- They are ready made, unless a fault is raised instead. -/
  | readyMade (failure : Option Fault)
  deriving Repr, Inhabited

/-- Gets a client from a factory. -/
def ClientFactory.get (factory : ClientFactory) (backend : Backend) (settings : ClientSettings) :
    Act Cloud Client := fun cloud =>
  match factory with
  | .library => createClient backend settings cloud
  | .readyMade failure =>
    let cloud := { cloud with handedOut := settings :: cloud.handedOut }
    match failure with
    | some fault => .error fault cloud
    | none => .ok .readyMade cloud

end DiskStaging
