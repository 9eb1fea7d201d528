import PromptRegistry.Text.Basic
import PromptRegistry.Url.Basic

/-! # Paths of URLs -/

namespace PromptRegistry.Url

def isBreak (c : Char) : Bool := c == '\t' || c == '\n' || c == '\r'

/-- Tabs and line breaks do not count in a URL. -/
def withoutBreaks (text : List Char) : List Char := text.filter fun c => !isBreak c

def isSlash (special : Bool) (c : Char) : Bool := c == '/' || (special && c == '\\')

def isSingleDot (segment : List Char) : Bool :=
  segment == ['.'] || segment.map Char.toLower == ['%', '2', 'e']

def isDoubleDot (segment : List Char) : Bool :=
  segment == ['.', '.'] ||
    ["%2e.", ".%2e", "%2e%2e"].any fun spelling => segment.map Char.toLower == spelling.toList

/-- A segment that stays in its path: a drive letter, at the end of the segment or before a
backslash that does not separate. -/
def isAnchored : List Char → Bool
  | letter :: mark :: rest =>
      letter.isAlpha && (mark == ':' || mark == '|') && (rest.isEmpty || rest.head? == some '\\')
  | _ => false

/-- The path without its last segment. Here and below, a path that is being read has its last
segment first. -/
def parentPath : List (List Char) → List (List Char)
  | [] => []
  | segment :: reversed => if isAnchored segment then segment :: reversed else reversed

/-- Adds an encoded segment, which may be the last one. -/
def addSegment (reversed : List (List Char)) (segment : List Char) (last : Bool) :
    List (List Char) :=
  if isDoubleDot segment then
    if last then [] :: parentPath reversed else parentPath reversed
  else if isSingleDot segment then
    if last then [] :: reversed else reversed
  else segment :: reversed

def addSegments (reversed : List (List Char)) : List (List Char) → List (List Char)
  | [] => reversed
  | [segment] => addSegment reversed segment true
  | segment :: segments => addSegments (addSegment reversed segment false) segments

/-- The path with the encoded segments of a relative path behind it. -/
def extendPath (path : List (List Char)) (segments : List (List Char)) : List (List Char) :=
  (addSegments path.reverse segments).reverse

structure DrivePath where
  /-- The last segment comes first. -/
  reversed : List (List Char)
  /-- The first segment is a drive letter, so that the path has no place on a host. -/
  onDrive : Bool
  deriving DecidableEq, Repr

/-- The drive letter that a segment is, written with a colon. -/
def driveLetter? : List Char → Option (List Char)
  | [letter, mark] =>
      if letter.isAlpha ∧ (mark = ':' ∨ mark = '|') then some [letter, ':'] else none
  | _ => none

/-- The two segments of a text in which a break follows a letter and a colon. -/
def splitAtBreak? (text : List Char) : Option (List Char × List Char) :=
  match text.dropWhile isBreak with
  | letter :: cs =>
      match cs.dropWhile isBreak with
      | ':' :: gap :: cs =>
          let rest := withoutBreaks cs
          if letter.isAlpha ∧ isBreak gap ∧ !rest.isEmpty then some ([letter, ':'], rest) else none
      | _ => none
  | [] => none

namespace DrivePath

/-- Adds the text of a segment. Only the first segment can be a drive letter. -/
def add (path : DrivePath) (text : List Char) (last : Bool) : DrivePath :=
  let segment := encode pathSet (withoutBreaks text)
  let further : DrivePath := { path with reversed := addSegment path.reversed segment last }
  if path.reversed.isEmpty then
    match splitAtBreak? text, driveLetter? segment with
    | some (drive, rest), _ => { path with reversed := [encode pathSet rest, drive] }
    | none, some drive => ⟨[drive], true⟩
    | none, none => further
  else further

def addAll (path : DrivePath) : List (List Char) → DrivePath
  | [] => path
  | [text] => path.add text true
  | text :: texts => (path.add text false).addAll texts

/-- Reads the text behind the slash that a path begins with. -/
def ofText (text : List Char) : DrivePath :=
  addAll ⟨[], false⟩ (splitParts (isSlash true) text)

/-- The segments in order. The path begins with one slash only. -/
def segments (path : DrivePath) : List (List Char) :=
  match path.reversed.reverse.dropWhile List.isEmpty with
  | [] => [[]]
  | segments => segments

end DrivePath

/-- A path text without the slash that it may begin with. -/
def dropSlash (special : Bool) : List Char → List Char
  | [] => []
  | c :: cs => if isSlash special c then cs else c :: cs

def readPath (scheme : List Char) (text : List Char) : List (List Char) :=
  let special := specialSchemes.contains scheme
  if scheme = fileScheme then (DrivePath.ofText (dropSlash special text)).segments
  else if text.isEmpty ∧ !special then []
  else extendPath [] ((splitParts (isSlash special) (dropSlash special text)).map (encode pathSet))

/-- Puts a new path text into a URL. A rigid path may not begin with a slash. -/
def setPath (url : Url) (text : List Char) : Url :=
  match url.path with
  | .segments _ => { url with path := .segments (readPath url.scheme text) }
  | .rigid _ =>
      let text := match text with
        | '/' :: cs => '%' :: '2' :: 'F' :: encode controlSet cs
        | cs => encode controlSet cs
      { url with path := .rigid text }

/-- The URL with a slash at the end of its path. -/
def asDirectory (url : Url) : Url :=
  if url.path.text.getLast? = some '/' then url else url.setPath (url.path.text ++ ['/'])

/-- Joins a relative path, which takes the place of the last segment, the query and the fragment. -/
def join (url : Url) (reference : List (List Char)) : Except Fault Url :=
  match url.path with
  | .segments path =>
      .ok { url with
        path := .segments (extendPath path.dropLast reference), query := none, fragment := none }
  | .rigid _ => .error .relativeWithRigidBase

/-- Adds a name as one segment. Names that are a dot or two dots add nothing. -/
def push (url : Url) (name : List Char) : Url :=
  match url.path with
  | .rigid _ => url
  | .segments path =>
      if name = ['.'] ∨ name = ['.', '.'] then url
      else
        let set := if url.isSpecial then specialSegmentSet else segmentSet
        let segment := encode set (withoutBreaks name)
        let path := if path = [[]] then [] else path
        { url with path := .segments (extendPath path [segment]) }

end PromptRegistry.Url
