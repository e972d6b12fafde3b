import DiskStaging.Url.Host

/-!
# URLs

A URL has six parts: scheme, host part, path, parameters of the last path
segment, query and fragment. Reading one drops control characters and blanks in
front, and tabs and line ends everywhere. Nothing else is normalised, apart from
the case of the scheme; percent escapes stay as they are.

Writing a URL leaves out delimiters of empty parts, so a URL that was read and
written again may have lost some.
-/

set_option autoImplicit false

namespace DiskStaging

/-- The parts of a URL. -/
structure Url where
  scheme : String
  netloc : String
  path : String
  params : String
  query : String
  fragment : String
  deriving DecidableEq, Repr, Inhabited

namespace Url

open Text

/-- The schemes whose last path segment may have parameters. -/
def schemesWithParams : List String := ["", "ftp", "hdl", "prospero", "http", "imap", "https",
  "shttp", "rtsp", "rtsps", "rtspu", "sip", "sips", "mms", "sftp", "tel"]

/-- The schemes that are written with slashes even where the host is empty. -/
def schemesWithHost : List String := ["", "ftp", "http", "gopher", "nntp", "telnet", "imap",
  "wais", "file", "mms", "https", "shttp", "snews", "prospero", "rtsp", "rtsps", "rtspu",
  "rsync", "svn", "svn+ssh", "sftp", "nfs", "git", "git+ssh", "ws", "wss"]

/-! ## Reading -/

/-- Whether a character is an ASCII letter. -/
def isLetter (c : Char) : Bool := ('a' ≤ c && c ≤ 'z') || ('A' ≤ c && c ≤ 'Z')

/-- Whether a character may stand in a scheme. -/
def isSchemeChar (c : Char) : Bool :=
  isLetter c || ('0' ≤ c && c ≤ '9') || c = '+' || c = '-' || c = '.'

/-- The text of a URL without what reading ignores. -/
def cleaned (text : List Char) : List Char :=
  (text.dropWhile (· ≤ ' ')).filter fun c => c ≠ '\t' && c ≠ '\r' && c ≠ '\n'

/-- The scheme, in lower case, and what follows its colon. -/
def cutScheme (text : List Char) : List Char × List Char :=
  match cut? ':' text with
  | some (first :: more, behind) =>
    if isLetter first && more.all isSchemeChar then ((first :: more).map Char.toLower, behind)
    else ([], text)
  | _ => ([], text)

/-- The part that names the host, if two slashes announce one, and what follows it. -/
def cutNetloc (text : List Char) : List Char × List Char :=
  match text with
  | '/' :: '/' :: rest =>
    let inside (c : Char) : Bool := c ≠ '/' && c ≠ '?' && c ≠ '#'
    (rest.takeWhile inside, rest.dropWhile inside)
  | _ => ([], text)

/-- What stands before a character, and behind it. -/
def cutAt (separator : Char) (text : List Char) : List Char × List Char :=
  (cut? separator text).getD (text, [])

/-- The path without the parameters of its last segment, and the parameters. -/
def cutParams (scheme path : List Char) : List Char × List Char :=
  if schemesWithParams.contains (String.ofList scheme) then
    let last := (path.reverse.takeWhile (· ≠ '/')).reverse
    let before := path.take (path.length - last.length)
    match cut? ';' last with
    | some (name, params) => (before ++ name, params)
    | none => (path, [])
  else (path, [])

/-- Reads a URL. -/
def parse (text : String) : Except UrlFault Url := do
  let (scheme, rest) := cutScheme (cleaned text.toList)
  let (netloc, rest) := cutNetloc rest
  checkBrackets netloc
  let (rest, fragment) := cutAt '#' rest
  let (path, query) := cutAt '?' rest
  checkLookalikes netloc
  let (path, params) := cutParams scheme path
  return {
    scheme := String.ofList scheme
    netloc := String.ofList netloc
    path := String.ofList path
    params := String.ofList params
    query := String.ofList query
    fragment := String.ofList fragment }

/-! ## Writing -/

/-- A part with its delimiter in front, unless it is empty. -/
def delimited (delimiter : Char) (part : List Char) : List Char :=
  if part.isEmpty then [] else delimiter :: part

/-- Whether the host part is written, with two slashes in front. -/
def showsHost (scheme netloc path : List Char) : Bool :=
  !netloc.isEmpty || (!scheme.isEmpty && schemesWithHost.contains (String.ofList scheme)) ||
    path.take 2 = ['/', '/']

/-- The host part and the path behind it. -/
def hostAndPath (scheme netloc path : List Char) : List Char :=
  if showsHost scheme netloc path then
    let path := if !path.isEmpty && path.head? ≠ some '/' then '/' :: path else path
    ['/', '/'] ++ netloc ++ path
  else path

/-- Writes a URL. -/
def render (url : Url) : String :=
  let scheme := url.scheme.toList
  let path := url.path.toList ++ delimited ';' url.params.toList
  String.ofList <|
    (if scheme.isEmpty then [] else scheme ++ [':']) ++
      hostAndPath scheme url.netloc.toList path ++
      delimited '?' url.query.toList ++ delimited '#' url.fragment.toList

end Url

end DiskStaging
