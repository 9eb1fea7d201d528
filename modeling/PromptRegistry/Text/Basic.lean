/-! # Digits, blanks and bytes of texts -/

namespace PromptRegistry

def digit? (c : Char) : Option Nat :=
  if '0' ≤ c ∧ c ≤ '9' then some (c.toNat - '0'.toNat) else none

def hexDigit? (c : Char) : Option Nat :=
  if '0' ≤ c ∧ c ≤ '9' then some (c.toNat - '0'.toNat)
  else if 'a' ≤ c ∧ c ≤ 'f' then some (c.toNat - 'a'.toNat + 10)
  else if 'A' ≤ c ∧ c ≤ 'F' then some (c.toNat - 'A'.toNat + 10)
  else none

/-- The decimal digits of a natural number, without leading zeros. -/
def decimalText (n : Nat) : List Char := Nat.toDigits 10 n

/-- The largest number of 64 bits. -/
def maxWord : Nat := 0xFFFFFFFFFFFFFFFF

inductive CountFault where
  | invalidDigit
  | tooLarge
  deriving DecidableEq, Repr

def CountFault.message : CountFault → String
  | .invalidDigit => "invalid digit found in string"
  | .tooLarge => "number too large to fit in target type"

def readDigits (limit value : Nat) : List Char → Except CountFault Nat
  | [] => .ok value
  | c :: cs =>
      match digit? c with
      | none => .error .invalidDigit
      | some d =>
          if limit < value * 10 + d then .error .tooLarge else readDigits limit (value * 10 + d) cs

/-- Reads a count: one plus sign may stand before at least one digit. -/
def readCount (limit : Nat) (text : List Char) : Except CountFault Nat :=
  match text with
  | '+' :: c :: cs => readDigits limit 0 (c :: cs)
  | [] => .error .invalidDigit
  | cs => readDigits limit 0 cs

/-- The parts of a text between separators. There is always at least one. -/
def splitParts (separator : Char → Bool) : List Char → List (List Char)
  | [] => [[]]
  | c :: cs =>
      if separator c then [] :: splitParts separator cs
      else
        match splitParts separator cs with
        | [] => [[c]]
        | part :: parts => (c :: part) :: parts

/-- The text before the first separator, and the text from it on. -/
def splitFirst (separator : Char → Bool) (text : List Char) : List Char × List Char :=
  (text.takeWhile fun c => !separator c, text.dropWhile fun c => !separator c)

def isWhiteSpace (c : Char) : Bool :=
  let n := c.toNat
  (0x09 ≤ n && n ≤ 0x0D) || n == 0x20 || n == 0x85 || n == 0xA0 || n == 0x1680 ||
    (0x2000 ≤ n && n ≤ 0x200A) || n == 0x2028 || n == 0x2029 || n == 0x202F || n == 0x205F ||
    n == 0x3000

/-- Drops the characters with a property at the end of a list. -/
def dropEndWhile (p : Char → Bool) (text : List Char) : List Char :=
  (text.reverse.dropWhile p).reverse

def trimBoth (p : Char → Bool) (text : List Char) : List Char :=
  dropEndWhile p (text.dropWhile p)

def trim (text : String) : String := String.ofList (trimBoth isWhiteSpace text.toList)

namespace Utf8

def encode (text : List Char) : List UInt8 := text.flatMap String.utf8EncodeChar

def isContinuation (byte : UInt8) : Bool := 0x80 ≤ byte && byte ≤ 0xBF

/-- The second bytes that may follow the first byte of a character of three or four bytes. -/
def isSecond (first second : UInt8) : Bool :=
  if first = 0xE0 then 0xA0 ≤ second && second ≤ 0xBF
  else if first = 0xED then 0x80 ≤ second && second ≤ 0x9F
  else if first = 0xF0 then 0x90 ≤ second && second ≤ 0xBF
  else if first = 0xF4 then 0x80 ≤ second && second ≤ 0x8F
  else isContinuation second

def replacement : Char := '\ufffd'

/-- The character of a first byte's payload and the continuation bytes after it. -/
def join (payload : Nat) (continuation : List UInt8) : Char :=
  Char.ofNat (continuation.foldl (fun value byte => value * 64 + byte.toNat % 64) payload)

/-- Reads any bytes as text. -/
def decode : List UInt8 → List Char
  | [] => []
  | a :: rest =>
      if a ≤ 0x7F then Char.ofNat a.toNat :: decode rest
      else if 0xC2 ≤ a ∧ a ≤ 0xDF then
        match rest with
        | [] => [replacement]
        | b :: tail =>
            if isContinuation b then join (a.toNat % 32) [b] :: decode tail
            else replacement :: decode (b :: tail)
      else if 0xE0 ≤ a ∧ a ≤ 0xEF then
        match rest with
        | [] => [replacement]
        | b :: tail =>
            if isSecond a b then
              match tail with
              | [] => [replacement]
              | c :: tail =>
                  if isContinuation c then join (a.toNat % 16) [b, c] :: decode tail
                  else replacement :: decode (c :: tail)
            else replacement :: decode (b :: tail)
      else if 0xF0 ≤ a ∧ a ≤ 0xF4 then
        match rest with
        | [] => [replacement]
        | b :: tail =>
            if isSecond a b then
              match tail with
              | [] => [replacement]
              | c :: tail =>
                  if isContinuation c then
                    match tail with
                    | [] => [replacement]
                    | d :: tail =>
                        if isContinuation d then join (a.toNat % 8) [b, c, d] :: decode tail
                        else replacement :: decode (d :: tail)
                  else replacement :: decode (c :: tail)
            else replacement :: decode (b :: tail)
      else replacement :: decode rest

end Utf8

namespace Base64

def letter (n : Nat) : Char :=
  if n < 26 then Char.ofNat ('A'.toNat + n)
  else if n < 52 then Char.ofNat ('a'.toNat + (n - 26))
  else if n < 62 then Char.ofNat ('0'.toNat + (n - 52))
  else if n = 62 then '+'
  else '/'

def encode : List UInt8 → List Char
  | [] => []
  | [a] => [letter (a.toNat / 4), letter (a.toNat % 4 * 16), '=', '=']
  | [a, b] =>
      [letter (a.toNat / 4), letter (a.toNat % 4 * 16 + b.toNat / 16),
        letter (b.toNat % 16 * 4), '=']
  | a :: b :: c :: rest =>
      letter (a.toNat / 4) :: letter (a.toNat % 4 * 16 + b.toNat / 16) ::
        letter (b.toNat % 16 * 4 + c.toNat / 64) :: letter (c.toNat % 64) :: encode rest

end Base64

end PromptRegistry
