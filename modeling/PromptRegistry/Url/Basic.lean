import PromptRegistry.Text.Basic

/-! # URLs -/

namespace PromptRegistry.Url

/-- Why a text is no URL, or a reference cannot be joined to one. -/
inductive Fault where
  | relativeWithoutBase
  | relativeWithRigidBase
  | emptyHost
  | invalidPort
  | invalidIpv4
  | invalidIpv6
  | invalidDomain
  | invalidDomainCharacter
  deriving DecidableEq, Repr

def Fault.message : Fault → String
  | .relativeWithoutBase => "relative URL without a base"
  | .relativeWithRigidBase => "relative URL with a cannot-be-a-base base"
  | .emptyHost => "empty host"
  | .invalidPort => "invalid port number"
  | .invalidIpv4 => "invalid IPv4 address"
  | .invalidIpv6 => "invalid IPv6 address"
  | .invalidDomain => "invalid international domain name"
  | .invalidDomainCharacter => "invalid domain character"

/-- A set of characters that are encoded. -/
abbrev EncodeSet := Char → Bool

def controlSet : EncodeSet := fun c => c.toNat < 0x20 || 0x7E < c.toNat

def querySet : EncodeSet := fun c => controlSet c || [' ', '"', '#', '<', '>'].contains c

def specialQuerySet : EncodeSet := fun c => querySet c || c == '\''

def fragmentSet : EncodeSet := fun c => controlSet c || [' ', '"', '<', '>', '`'].contains c

def pathSet : EncodeSet := fun c => fragmentSet c || ['#', '?', '{', '}'].contains c

def userInfoSet : EncodeSet := fun c =>
  pathSet c || ['/', ':', ';', '=', '@', '[', '\\', ']', '^', '|'].contains c

def segmentSet : EncodeSet := fun c => pathSet c || c == '/' || c == '%'

def specialSegmentSet : EncodeSet := fun c => segmentSet c || c == '\\'

/-- The upper-case hexadecimal digit of a number below sixteen. -/
def upperHexChar (n : Nat) : Char := (Nat.digitChar n).toUpper

def percentByte (byte : UInt8) : List Char :=
  ['%', upperHexChar (byte.toNat / 16), upperHexChar (byte.toNat % 16)]

def encodeChar (set : EncodeSet) (c : Char) : List Char :=
  if set c then (String.utf8EncodeChar c).flatMap percentByte else [c]

def encode (set : EncodeSet) (text : List Char) : List Char := text.flatMap (encodeChar set)

/-- The bytes that a percent-encoded text stands for. -/
def percentDecode : List Char → List UInt8
  | '%' :: high :: low :: cs =>
      match hexDigit? high, hexDigit? low with
      | some high, some low => UInt8.ofNat (high * 16 + low) :: percentDecode cs
      | _, _ => String.utf8EncodeChar '%' ++ percentDecode (high :: low :: cs)
  | c :: cs => String.utf8EncodeChar c ++ percentDecode cs
  | [] => []

end PromptRegistry.Url

namespace PromptRegistry

inductive Url.Path where
  | segments (list : List (List Char))
  | rigid (text : List Char)
  deriving DecidableEq, Repr

structure Url where
  scheme : List Char
  username : List Char
  password : List Char
  /-- Absent where the URL has no authority; the host of an authority may be empty. -/
  host : Option (List Char)
  port : Option Nat
  path : Url.Path
  query : Option (List Char)
  fragment : Option (List Char)
  deriving DecidableEq, Repr

namespace Url

def fileScheme : List Char := "file".toList

/-- Schemes whose URLs have an authority and take backslashes for slashes. -/
def specialSchemes : List (List Char) :=
  ["http", "https", "ws", "wss", "ftp", "file"].map String.toList

def isSpecial (url : Url) : Bool := specialSchemes.contains url.scheme

def defaultPort? (scheme : List Char) : Option Nat :=
  if scheme = "http".toList ∨ scheme = "ws".toList then some 80
  else if scheme = "https".toList ∨ scheme = "wss".toList then some 443
  else if scheme = "ftp".toList then some 21
  else none

def Path.text : Path → List Char
  | .segments list => list.flatMap ('/' :: ·)
  | .rigid text => text

/-- User name and password before the host, with their mark. -/
def userInfoText (url : Url) : List Char :=
  if url.username.isEmpty ∧ url.password.isEmpty then []
  else if url.password.isEmpty then url.username ++ ['@']
  else url.username ++ ':' :: url.password ++ ['@']

/-- A dot keeps a path that begins with two slashes apart from an authority. -/
def authorityText (url : Url) : List Char :=
  match url.host with
  | some host =>
      '/' :: '/' :: url.userInfoText ++ host ++
        (url.port.elim [] fun port => ':' :: decimalText port)
  | none =>
      match url.path with
      | .segments ([] :: _ :: _) => ['/', '.']
      | _ => []

def chars (url : Url) : List Char :=
  url.scheme ++ ':' :: url.authorityText ++ url.path.text ++
    (url.query.elim [] ('?' :: ·)) ++ (url.fragment.elim [] ('#' :: ·))

def text (url : Url) : String := String.ofList url.chars

/-- The URL that a request is sent to: user information and fragment stay with the client. -/
def target (url : Url) : Url := { url with username := [], password := [], fragment := none }

end Url

end PromptRegistry
