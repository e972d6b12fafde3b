import DiskStaging.Deflate.Inflate
import DiskStaging.Image
import DiskStaging.Location
import DiskStaging.Lzma.Fault
import DiskStaging.Phase
import DiskStaging.Text.Quoted

/-!
# Everything that can go wrong

A fault says what went wrong, and, where a fault led to another one, which. Its
kind is what callers tell faults apart by: some steps catch faults of certain
kinds only. Kinds form a hierarchy (`Kind.parents`). What a source, a store or a
client library reports itself comes in as a foreign fault of any kind.
-/

set_option autoImplicit false

namespace DiskStaging

/-! ## Kinds -/

/-- What kind of thing went wrong. -/
inductive Kind where
  /-- No particular kind. -/
  | general
  /-- Anything between a program and its files and connections. -/
  | io
  | connection
  | brokenPipe
  | connectionAborted
  | connectionRefused
  | connectionReset
  | missingFile
  | existingFile
  | permission
  | timeout
  | interrupted
  | blocked
  | missingProcess
  | missingChild
  | isDirectory
  | notDirectory
  | gzipFormat
  | value
  | endOfData
  | runtime
  | key
  | index
  | type
  /-- A number that is too large. -/
  | overflow
  /-- A library that could not be loaded. -/
  | library
  | missingLibrary
  | xzData
  | deflateData
  /-- A fault of an import. -/
  | importer
  | endpoint
  | client
  | image
  | phase
  | transfer
  | unavailable
  deriving DecidableEq, Repr, Inhabited

/-- All kinds above a kind. -/
def Kind.parents : Kind → List Kind
  | .connection | .missingFile | .existingFile | .permission | .timeout | .interrupted
  | .blocked | .missingProcess | .missingChild | .isDirectory | .notDirectory
  | .gzipFormat => [.io]
  | .brokenPipe | .connectionAborted | .connectionRefused | .connectionReset =>
    [.connection, .io]
  | .missingLibrary => [.library]
  | .endpoint => [.importer, .value]
  | .client | .image => [.importer]
  | .phase => [.importer, .runtime]
  | .transfer | .unavailable => [.importer, .io]
  | _ => []

/-- Whether a kind is the given one or below it. -/
def Kind.isA (kind above : Kind) : Bool := kind = above || kind.parents.contains above

/-! ## Faults -/

/-- The services that objects are fetched from. -/
inductive Backend where
  | s3
  | gcs
  deriving DecidableEq, Repr, Inhabited

/-- What can be wrong with a file. -/
inductive FileFault where
  | missing
  | notDirectory
  | isDirectory
  | nameTooLong
  /-- The path holds a null character, which no path may. -/
  | nullCharacter
  deriving DecidableEq, Repr

/-- What can be wrong around the deflate data of a gzip member. -/
inductive GzipFault where
  | magic (found : Bytes)
  | method
  | check (stated computed : Nat)
  | length
  deriving DecidableEq, Repr

/-- The largest number of bytes that can be counted. Where a limit has to be stated, it stands
for none. -/
def largestCount : Nat := 1 <<< 63 - 1

/-- The steps of an import. -/
inductive Operation where
  | info
  | transfer
  | transferFile
  deriving DecidableEq, Repr

/-- Something that went wrong. -/
inductive Fault where
  /-- Reported from outside. -/
  | foreign (kind : Kind) (text : String)
  /-- The content of an object was read after it was closed. -/
  | contentClosed
  /-- A stream was used after it was closed. -/
  | streamClosed
  /-- A stream was to show bytes, but not said how many. -/
  | noSize
  | gzip (why : GzipFault)
  | deflate (why : Deflate.Fault)
  | lzma (why : Lzma.Fault)
  /-- Compressed data ended too early. -/
  | cutShort
  /-- More bytes were asked for than fit into one piece. -/
  | tooLarge (size : Nat)
  | url (why : UrlFault)
  | endpoint (text : String) (why : EndpointFault)
  | header (why : HeaderFault)
  | unreadableHeader (cause : Fault)
  | noObject (bucket key : String)
  | file (path : String) (why : FileFault)
  | copy (path : String) (cause : Fault)
  | notScratch (path : String)
  /-- The client library of a backend is not installed. -/
  | noLibrary (backend : Backend)
  | badService (service : String)
  | libraryRefused (backend : Backend) (service : String) (cause : Fault)
  | noClient (text : String) (cause : Fault)
  | openFailed (place : String) (cause : Fault)
  | readFailed (place : String) (cause : Fault)
  /-- A transfer was asked for after the source was closed. -/
  | sourceClosed (place : String)
  | infoAfterClose (place : String)
  | wrongPhase (operation : Operation) (wanted : Option Phase) (place : String)
      (current : Option Phase)
  | unknownPhase (shown : String)
  deriving Repr, Inhabited

/-- How a step is called. -/
def Operation.call : Operation → String
  | .info => "info()"
  | .transfer => "transfer()"
  | .transferFile => "transfer_file()"

/-- The wording of a fault of the file at a path. -/
def FileFault.message (path : String) : FileFault → String
  | .missing => "[Errno 2] No such file or directory: " ++ Text.quoted path
  | .notDirectory => "[Errno 20] Not a directory: " ++ Text.quoted path
  | .isDirectory => "[Errno 21] Is a directory: " ++ Text.quoted path
  | .nameTooLong => "[Errno 36] File name too long: " ++ Text.quoted path
  | .nullCharacter => "embedded null byte"

/-- The wording of each fault. -/
def GzipFault.message : GzipFault → String
  | .magic found => "Not a gzipped file (" ++ Text.quotedBytes found ++ ")"
  | .method => "Unknown compression method"
  | .check stated computed =>
    "CRC check failed " ++ hex stated ++ " != " ++ hex computed
  | .length => "Incorrect length of data produced"
where
  hex (value : Nat) : String := "0x" ++ String.ofList (Text.hexDigits 1 value)

namespace Fault

/-- The kind of a fault. -/
def kind : Fault → Kind
  | .foreign kind _ => kind
  | .contentClosed | .streamClosed | .url _ | .unknownPhase _ => .value
  | .noSize => .type
  | .gzip _ => .gzipFormat
  | .deflate _ => .deflateData
  | .lzma _ => .xzData
  | .cutShort => .endOfData
  | .tooLarge _ => .overflow
  | .endpoint .. => .endpoint
  | .header _ | .unreadableHeader _ => .image
  | .noObject .. => .missingFile
  | .file _ .missing => .missingFile
  | .file _ .notDirectory => .notDirectory
  | .file _ .isDirectory => .isDirectory
  | .file _ .nameTooLong => .io
  | .file _ .nullCharacter => .value
  | .copy .. | .notScratch _ => .transfer
  | .noLibrary _ => .library
  | .badService _ | .libraryRefused .. | .noClient .. => .client
  | .openFailed .. | .readFailed .. | .sourceClosed _ => .unavailable
  | .infoAfterClose _ | .wrongPhase .. => .phase

/-- Whether a fault is of the given kind or one below it. -/
def isA (fault : Fault) (kind : Kind) : Bool := fault.kind.isA kind

/-- The kind of the fault that led to this one. -/
def causeKind : Fault → Option Kind
  | .endpoint _ (.notUrl _) => some .value
  | .unreadableHeader cause | .copy _ cause | .libraryRefused _ _ cause | .noClient _ cause
  | .openFailed _ cause | .readFailed _ cause => some cause.kind
  | .noLibrary _ => some .missingLibrary
  | _ => none

/-- The wording of a fault. -/
def message : Fault → String
  | .foreign _ text => text
  | .contentClosed => "I/O operation on closed file."
  | .streamClosed => "I/O operation on closed stream"
  | .noSize => "'<' not supported between instances of 'int' and 'NoneType'"
  | .gzip why => why.message
  | .deflate why => "Error -3 while decompressing data: " ++ why.message
  | .lzma why => why.message
  | .cutShort => "Compressed file ended before the end-of-stream marker was reached"
  | .tooLarge size =>
    if size ≤ largestCount then "byte string is too large"
    else "cannot fit 'int' into an index-sized integer"
  | .url why => why.message
  | .endpoint text why => why.message text
  | .header why => why.message
  | .unreadableHeader cause => "Unable to read image header: " ++ cause.message
  | .noObject bucket key => "NoSuchKey: " ++ bucket ++ "/" ++ key
  | .file path why => why.message path
  | .copy path cause => "Failed to write " ++ path ++ ": " ++ cause.message
  | .notScratch path => "Scratch space is not a directory: " ++ path
  | .noLibrary .s3 =>
    "boto3 is required for S3 sources. Install with: pip install disk-importer[s3]"
  | .noLibrary .gcs => "google-cloud-storage is required for GCS sources. " ++
    "Install with: pip install disk-importer[gcs]"
  | .badService service => "Malformed storage endpoint: " ++ service
  | .libraryRefused .s3 service cause =>
    "Failed to create S3 client for " ++ service ++ ": " ++ cause.message
  | .libraryRefused .gcs _ cause => "Failed to create GCS client: " ++ cause.message
  | .noClient text cause => "Unable to create client for " ++ text ++ ": " ++ cause.message
  | .openFailed place cause => "Failed to open " ++ place ++ ": " ++ cause.message
  | .readFailed place cause => "Failed to read " ++ place ++ ": " ++ cause.message
  | .sourceClosed place => "Stream for " ++ place ++ " is closed"
  | .infoAfterClose place => "info() called after " ++ place ++ " was closed"
  | .wrongPhase operation wanted place current =>
    operation.call ++ " requires phase " ++ phaseText wanted ++ ", but " ++ place ++
      " is in phase " ++ phaseText current
  | .unknownPhase shown => shown ++ " is not a valid ProcessingPhase"

end Fault

end DiskStaging
