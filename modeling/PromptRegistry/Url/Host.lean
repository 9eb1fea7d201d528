import PromptRegistry.Text.Basic
import PromptRegistry.Url.Basic

/-! # Hosts -/

namespace PromptRegistry.Url

/-- The digits of a text as a number in a base, if there are any. -/
def readBase? (base : Nat) (text : List Char) : Option Nat :=
  text.foldlM (fun value c => do
    let d ← hexDigit? c
    if d < base then return value * base + d else failure) 0

/-- A part of a byte address: decimal, octal after a zero, or hexadecimal after `0x`. -/
def ipv4Number? : List Char → Option Nat
  | [] => none
  | '0' :: 'x' :: digits => readBase? 16 digits
  | '0' :: 'X' :: digits => readBase? 16 digits
  | '0' :: digit :: digits => readBase? 8 (digit :: digits)
  | digits => readBase? 10 digits

/-- The labels of a name without the empty one behind a final point. -/
def labels (name : List Char) : List (List Char) :=
  let parts := splitParts (· == '.') name
  if parts.length > 1 ∧ parts.getLast? = some [] then parts.dropLast else parts

/-- A name whose last label is a number has to be a byte address. -/
def endsInNumber (name : List Char) : Bool :=
  match (labels name).getLast? with
  | none => false
  | some last =>
      (!last.isEmpty && last.all fun c => (digit? c).isSome) || (ipv4Number? last).isSome

/-- The last number of an address fills all bytes that are left. -/
def ipv4Value? (numbers : List Nat) : Option Nat :=
  match numbers.reverse with
  | [] => none
  | last :: leading =>
      let limit := Nat.pow 256 (4 - leading.length)
      if leading.length > 3 ∨ leading.any (255 < ·) ∨ limit ≤ last then none
      else
        let high := leading.reverse.foldl (fun value n => value * 256 + n) 0
        some (high * limit + last)

/-- The bytes of a value of 32 bits, the highest first. -/
def fourBytes (value : Nat) : List Nat :=
  [value / 256 / 256 / 256, value / 256 / 256 % 256, value / 256 % 256, value % 256]

def ipv4Text (value : Nat) : List Char := ['.'].intercalate ((fourBytes value).map decimalText)

def readIpv4 (name : List Char) : Except Fault (List Char) :=
  match ((labels name).mapM ipv4Number?).bind ipv4Value? with
  | some value => .ok (ipv4Text value)
  | none => .error .invalidIpv4

def ipv6Word? (text : List Char) : Option Nat :=
  if text.isEmpty ∨ 4 < text.length then none else readBase? 16 text

/-- A byte in decimal, without leading zeros. -/
def plainByte? (text : List Char) : Option Nat :=
  match text with
  | [] => none
  | '0' :: _ :: _ => none
  | digits => (readBase? 10 digits).filter (· < 256)

/-- Words between colons, of which the last two may be written as four bytes. -/
def ipv6Words? : List (List Char) → Option (List Nat)
  | [] => some []
  | [part] =>
      if part.contains '.' then
        match (splitParts (· == '.') part).mapM plainByte? with
        | some [a, b, c, d] => some [a * 256 + b, c * 256 + d]
        | _ => none
      else (ipv6Word? part).map ([·])
  | part :: parts => do return (← ipv6Word? part) :: (← ipv6Words? parts)

/-- The text before and after a double colon. -/
def splitDoubleColon : List Char → Option (List Char × List Char)
  | [] => none
  | ':' :: ':' :: cs => some ([], cs)
  | c :: cs => (splitDoubleColon cs).map fun (before, after) => (c :: before, after)

def wordsBetween? (text : List Char) : Option (List Nat) :=
  if text.isEmpty then some [] else ipv6Words? (splitParts (· == ':') text)

/-- A double colon stands for at least one zero word. -/
def readIpv6? (text : List Char) : Option (List Nat) :=
  match splitDoubleColon text with
  | none => (wordsBetween? text).filter (·.length = 8)
  | some (before, after) => do
      if before.contains '.' then failure
      let before ← wordsBetween? before
      let after ← wordsBetween? after
      if before.length + after.length < 8 then
        return before ++ List.replicate (8 - before.length - after.length) 0 ++ after
      else failure

/-- Start and length of the first longest run of zeros. -/
def longestZeroRun (words : List Nat) : Nat × Nat :=
  let runs := (List.range words.length).map fun start =>
    (start, ((words.drop start).takeWhile (· == 0)).length)
  runs.foldl (fun best run => if best.2 < run.2 then run else best) (0, 0)

def wordsText (words : List Nat) : List Char :=
  [':'].intercalate (words.map (Nat.toDigits 16))

def ipv6Text (words : List Nat) : List Char :=
  let (start, length) := longestZeroRun words
  if length < 2 then wordsText words
  else wordsText (words.take start) ++ ':' :: ':' :: wordsText (words.drop (start + length))

def readBracketed (text : List Char) : Except Fault (List Char) :=
  match text.getLast? with
  | some ']' =>
      match readIpv6? text.dropLast with
      | some words => .ok ('[' :: ipv6Text words ++ [']'])
      | none => .error .invalidIpv6
  | _ => .error .invalidIpv6

/-- Turns the bytes of a name into the ASCII name of a host, if they are a name. -/
abbrev ToAscii : Type := List UInt8 → Option (List Char)

def forbiddenInHost : List Char :=
  ['\x00', '\t', '\n', '\r', ' ', '#', '/', ':', '<', '>', '?', '@', '[', '\\', ']', '^', '|']

def forbiddenInName (c : Char) : Bool :=
  c.toNat < 0x20 || 0x7E < c.toNat || c == '%' || forbiddenInHost.contains c

/-- Takes ASCII names only, and puts them in lower case. International names need the tables of all
scripts, and so does the check of labels that encode such names. -/
def asciiNames : ToAscii := fun bytes =>
  let name := bytes.map fun byte => (Char.ofNat byte.toNat).toLower
  if name.any forbiddenInName then none else some name

def readHost (toAscii : ToAscii) : List Char → Except Fault (List Char)
  | '[' :: text => readBracketed text
  | text =>
      match toAscii (percentDecode text) with
      | none => .error .invalidDomain
      | some name =>
          if name.isEmpty then .error .emptyHost
          else if endsInNumber name then readIpv4 name
          else .ok name

/-- The host of any other URL, which may be empty. -/
def readPlainHost : List Char → Except Fault (List Char)
  | '[' :: text => readBracketed text
  | text =>
      if text.any forbiddenInHost.contains then .error .invalidDomainCharacter
      else .ok (encode controlSet text)

end PromptRegistry.Url
