import DiskStaging.Cloud
import DiskStaging.Stream.Content

/-!
# Intakes

An intake brings one disk image in from object storage. It is set up from an
endpoint, which names the object and may name the service, and fetches the object
only when it has to; a source can be handed in to be read in its place.
-/

set_option autoImplicit false

namespace DiskStaging

/-- What an intake holds of the object. -/
inductive Holding where
  /-- Nothing was opened yet. -/
  | nothing
  | held (content : Content)
  /-- The content was let go. -/
  | released (source : Source)

/-- The source that an intake reads or has read. -/
def Holding.source? : Holding → Option Source
  | .nothing => none
  | .held content => some content.source
  | .released source => some source

/-- An intake. -/
structure Intake where
  backend : Backend
  location : Location
  /-- The service that the endpoint names; blank for the backend's own. -/
  service : String
  /-- Whether a service account key was given. -/
  hasAccount : Bool
  client : Client
  /-- How many bytes are copied at a time; all of them if there is no number or a
  negative one. -/
  chunk : Option Int
  holding : Holding
  /-- Where the image is at present. -/
  url : Url
  phase : Option Phase := none
  format : Option ImageFormat := none
  compression : Option Compression := none
  /-- The size of the file that was written. -/
  written : Nat := 0
  closed : Bool := false

/-- What an intake is set up from. -/
structure IntakeSettings where
  backend : Backend
  endpoint : String
  accessKey : String := ""
  secretKey : String := ""
  certDir : String := ""
  /-- The path of a service account key. -/
  account : String := ""
  chunk : Option Int
  factory : ClientFactory := .library
  /-- A source to read instead of fetching the object. -/
  reader : Option Source := none

/-- The scheme of endpoints that name the backend's own service. -/
def Backend.scheme : Backend → String
  | .s3 => "s3"
  | .gcs => "gs"

/-- The schemes of the endpoints of a backend. -/
def Backend.schemes : Backend → List String
  | .s3 => ["http", "https", "s3"]
  | .gcs => ["gs", "http", "https"]

/-- The service that a URL names. -/
def Backend.service (backend : Backend) (url : Url) : String :=
  if url.scheme = backend.scheme then "" else url.scheme ++ "://" ++ url.netloc

namespace IntakeSettings

/-- What the client is built from, given the service. -/
def client (settings : IntakeSettings) (service : String) : ClientSettings :=
  match settings.backend with
  | .s3 => ⟨service, settings.accessKey, settings.secretKey, settings.certDir⟩
  | .gcs => ⟨service, settings.account, "", ""⟩

end IntakeSettings

namespace Intake

/-- What setting up an intake reports when there is no client for it. Only a missing
library is reported as it is. -/
def clientFault (endpoint : String) (fault : Fault) : Fault :=
  if fault.isA .library then fault else .noClient endpoint fault

/-- Gets a client for an endpoint. -/
def getClient (settings : IntakeSettings) (service : String) : Act Cloud Client := fun cloud =>
  match settings.factory.get settings.backend (settings.client service) cloud with
  | .error fault cloud => .error (clientFault settings.endpoint fault) cloud
  | ending => ending

/-- The intake that some settings describe. -/
def ofSettings (settings : IntakeSettings) (location : Location) (client : Client) : Intake where
  backend := settings.backend
  location := location
  service := settings.backend.service location.url
  hasAccount := !settings.account.isEmpty
  client := client
  chunk := settings.chunk
  holding := match settings.reader with
    | none => .nothing
    | some source => .held (.ofSource source)
  url := location.url

/-- Sets up an intake. -/
def create (settings : IntakeSettings) : Act Cloud Intake :=
  match locate settings.endpoint settings.backend.schemes with
  | .error why => throw (.endpoint settings.endpoint why)
  | .ok location => do
    let client ← getClient settings (settings.backend.service location.url)
    pure (ofSettings settings location client)

/-- The URL that names the object in reports. -/
def name (intake : Intake) : String := intake.location.url.render

end Intake

end DiskStaging
