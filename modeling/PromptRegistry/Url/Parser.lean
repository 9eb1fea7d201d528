import PromptRegistry.Text.Basic
import PromptRegistry.Url.Host
import PromptRegistry.Url.Path

/-!
# Reading URLs

Blanks and controls around a text do not count. Tabs and line breaks count nowhere but behind the
drive letter of a file URL.
-/

namespace PromptRegistry.Url

def isSchemeChar (c : Char) : Bool := c.isAlphanum || c == '+' || c == '-' || c == '.'

def readScheme? (text : List Char) : Option (List Char × List Char) :=
  let (scheme, rest) := splitFirst (fun c => !isSchemeChar c) text
  match scheme, rest with
  | letter :: _, ':' :: rest =>
      if letter.isAlpha then some (scheme.map Char.toLower, rest) else none
  | _, _ => none

def endsAuthority (special : Bool) (c : Char) : Bool := isSlash special c || c == '?' || c == '#'

/-- The part of an authority before its last at sign, if there is one, and the part after it. -/
def splitUserInfo (authority : List Char) : Option (List Char) × List Char :=
  let (reversed, before) := splitFirst (· == '@') authority.reverse
  match before with
  | _ :: before => (some before.reverse, reversed.reverse)
  | [] => (none, authority)

def readUserInfo (text : List Char) : List Char × List Char :=
  let (name, rest) := splitFirst (· == ':') text
  (encode userInfoSet name, encode userInfoSet (rest.drop 1))

/-- The host text ends at a colon outside of brackets. -/
def splitHost (bracketed : Bool) : List Char → List Char × List Char
  | [] => ([], [])
  | c :: cs =>
      if c == ':' && !bracketed then ([], c :: cs)
      else
        let inside := if c == '[' then true else if c == ']' then false else bracketed
        let (host, rest) := splitHost inside cs
        (c :: host, rest)

/-- A port of sixteen bits. The default port of the scheme counts as none. -/
def readPort (scheme : List Char) (text : List Char) : Except Fault (Option Nat) :=
  match readDigits 0xFFFF 0 text with
  | .ok port => .ok (if text.isEmpty ∨ defaultPort? scheme = some port then none else some port)
  | .error _ => .error .invalidPort

/-- Query and fragment at the end of a text. -/
def readTail (special : Bool) (text : List Char) : Option (List Char) × Option (List Char) :=
  let (query, fragment) := splitFirst (· == '#') text
  let query := match query with
    | '?' :: cs => some (encode (if special then specialQuerySet else querySet) cs)
    | _ => none
  let fragment := match fragment with
    | _ :: cs => some (encode fragmentSet cs)
    | [] => none
  (query, fragment)

/-- The URL with an authority, from the text behind its slashes. -/
def readAuthority (toAscii : ToAscii) (scheme text : List Char) : Except Fault Url := do
  let special := specialSchemes.contains scheme
  let (authority, rest) := splitFirst (endsAuthority special) text
  let (userInfo, address) := splitUserInfo authority
  if userInfo = some [] ∧ address.isEmpty ∧ !rest.isEmpty then throw .emptyHost
  let (username, password) := readUserInfo (userInfo.getD [])
  let (hostText, portText) := splitHost false address
  if special ∧ hostText.isEmpty then throw .emptyHost
  let host ← if special then readHost toAscii hostText else readPlainHost hostText
  if host.isEmpty ∧ !portText.isEmpty then throw .emptyHost
  -- A backslash ends the port whatever the scheme.
  let (portText, extra) := splitFirst (· == '\\') (portText.drop 1)
  let port ← readPort scheme portText
  if host.isEmpty ∧ !(username.isEmpty ∧ password.isEmpty) then throw .emptyHost
  let (pathText, tail) := splitFirst (fun c => c == '?' || c == '#') (extra ++ rest)
  let (query, fragment) := readTail special tail
  return ⟨scheme, username, password, some host, port, .segments (readPath scheme pathText),
    query, fragment⟩

/-- The text behind a slash at its front. -/
def behindSlash? (text : List Char) : Option (List Char) :=
  match text.dropWhile isBreak with
  | c :: cs => if isSlash true c then some cs else none
  | [] => none

/-- The file URL on a host, which a drive letter at the front of the path takes the place of. -/
def fileUrl (host : List Char) (text : List Char) : Url :=
  let (pathText, tail) := splitFirst (fun c => c == '?' || c == '#') text
  let (query, fragment) := readTail true (withoutBreaks tail)
  let path := DrivePath.ofText pathText
  ⟨fileScheme, [], [], some (if path.onDrive then [] else host), none, .segments path.segments,
    query, fragment⟩

/-- A file URL may have a host behind two slashes, of which the local one is left out. The text may
still hold tabs and line breaks. -/
def readFile (toAscii : ToAscii) (text : List Char) : Except Fault Url :=
  match behindSlash? text with
  | none => .ok (fileUrl [] text)
  | some single =>
      match behindSlash? single with
      | none => .ok (fileUrl [] single)
      | some double => do
          let (hostText, rest) := splitFirst (endsAuthority true) double
          let hostText := withoutBreaks hostText
          if (driveLetter? hostText).isSome then return fileUrl [] double
          if hostText.isEmpty then return fileUrl [] rest
          let host ← readHost toAscii hostText
          if host = "localhost".toList then return fileUrl [] rest
          return fileUrl host (dropSlash true rest)

/-- A URL without an authority, whose path is rigid unless it begins with a slash. -/
def readLocal (scheme : List Char) (text : List Char) : Url :=
  let (pathText, tail) := splitFirst (fun c => c == '?' || c == '#') text
  let (query, fragment) := readTail false tail
  let path := match pathText with
    | '/' :: _ => Path.segments (readPath scheme pathText)
    | cs => .rigid (encode controlSet cs)
  ⟨scheme, [], [], none, none, path, query, fragment⟩

/-- Reads an absolute URL, whose host may be a name that is turned into ASCII. -/
def parse (text : String) (toAscii : ToAscii := asciiNames) : Except Fault Url :=
  let cs := trimBoth (·.toNat ≤ 0x20) text.toList
  match readScheme? (withoutBreaks cs) with
  | none => .error .relativeWithoutBase
  | some (scheme, rest) =>
      if scheme = fileScheme then readFile toAscii ((splitFirst (· == ':') cs).2.drop 1)
      else if specialSchemes.contains scheme then
        readAuthority toAscii scheme (rest.dropWhile (isSlash true))
      else
        match rest with
        | '/' :: '/' :: authority => readAuthority toAscii scheme authority
        | rest => .ok (readLocal scheme rest)

end PromptRegistry.Url
