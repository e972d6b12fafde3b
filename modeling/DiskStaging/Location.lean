import DiskStaging.Text.Percent
import DiskStaging.Url.Basic

/-!
# Locating objects

An endpoint is a URL that names an object: a bucket and a key inside it. In URLs
of a storage scheme the host part is the bucket and the path is the key; in web
URLs the host serves many buckets, and the first segment of the path names one.
Escapes in the path are decoded before the bucket is cut off.
-/

set_option autoImplicit false

namespace DiskStaging

open Text

/-- Why an endpoint does not name an object. -/
inductive EndpointFault where
  | empty
  | badEscape
  | notUrl (why : UrlFault)
  | wrongScheme (expected : List String)
  | noHost
  | noObject
  deriving DecidableEq, Repr

/-- The wording of each fault of the given endpoint. -/
def EndpointFault.message (endpoint : String) : EndpointFault → String
  | .empty => "endpoint must be non-empty"
  | .badEscape => "Invalid URL escape in endpoint: " ++ endpoint
  | .notUrl why => "Unable to parse endpoint " ++ endpoint ++ ": " ++ why.message
  | .wrongScheme expected =>
    "Unsupported scheme in endpoint " ++ endpoint ++ ". Expected one of: " ++
      ", ".intercalate expected
  | .noHost => "Missing host in endpoint: " ++ endpoint
  | .noObject => "Endpoint " ++ endpoint ++ " must reference an object as bucket/key"

/-- Cuts a path into a bucket and a key at the first slash. -/
def splitObject (path : String) : String × String :=
  match cut? '/' path.toList with
  | some (bucket, key) => (String.ofList bucket, String.ofList key)
  | none => (path, "")

/-- Reads an endpoint as a URL of one of the given schemes, with a host part. -/
def parseEndpoint (endpoint : String) (schemes : List String) : Except EndpointFault Url :=
  if endpoint.isEmpty then .error .empty
  else if !Percent.wellFormed endpoint.toList then .error .badEscape
  else match Url.parse endpoint with
    | .error why => .error (.notUrl why)
    | .ok url =>
      if !schemes.contains url.scheme then .error (.wrongScheme schemes)
      else if url.netloc.isEmpty then .error .noHost
      else .ok url

/-- The path that names bucket and key, with escapes decoded. -/
def objectPath (url : Url) : String :=
  if url.scheme = "http" || url.scheme = "https" then
    String.ofList (Percent.decode (url.path.toList.dropWhile (· = '/')))
  else url.netloc ++ String.ofList (Percent.decode url.path.toList)

/-- An object: where it was asked for, its bucket and its key. -/
structure Location where
  url : Url
  bucket : String
  key : String
  deriving DecidableEq, Repr

/-- Locates the object that an endpoint names. -/
def locate (endpoint : String) (schemes : List String) : Except EndpointFault Location := do
  let url ← parseEndpoint endpoint schemes
  let (bucket, key) := splitObject (objectPath url)
  if bucket.isEmpty || key.isEmpty then .error .noObject
  return ⟨url, bucket, key⟩

end DiskStaging
