import PromptRegistry.Json.Value
import PromptRegistry.Text.Basic

/-!
# Tokens of JSON text

A string with an unpaired surrogate and a number beyond the binary range are tokens without a value:
they may be skipped but not used.
-/

namespace PromptRegistry.Json

structure Literal where
  negative : Bool
  whole : List Nat
  fraction : Option (List Nat)
  exponent : Option Int
  deriving DecidableEq, Repr

def leadingDigits : List Char → List Nat
  | [] => []
  | c :: cs =>
      match digit? c with
      | some d => d :: leadingDigits cs
      | none => []

/-- Appends digits to a significand while it fits a word, and counts those appended. -/
def appendDigits (significand : Nat) : List Nat → Nat × Nat
  | [] => (significand, 0)
  | d :: ds =>
      if maxWord < significand * 10 + d then (significand, 0)
      else
        let (result, count) := appendDigits (significand * 10 + d) ds
        (result, count + 1)

namespace Literal

/-- The whole part has no leading zero unless it is zero. -/
def readWhole? (text : List Char) : Option (List Nat) :=
  match leadingDigits text with
  | [] => none
  | 0 :: _ :: _ => none
  | digits => some digits

def readFraction? : List Char → Option (Option (List Nat) × Nat)
  | '.' :: cs =>
      match leadingDigits cs with
      | [] => none
      | digits => some (some digits, digits.length + 1)
  | _ => some (none, 0)

def readPower? (negative : Bool) (sign : Nat) (text : List Char) :
    Option (Option Int × Nat) :=
  match leadingDigits text with
  | [] => none
  | digits =>
      let power : Nat := digits.foldl (fun value d => value * 10 + d) 0
      some (some (if negative then -(power : Int) else power), digits.length + sign + 1)

def readExponent? : List Char → Option (Option Int × Nat)
  | mark :: cs =>
      if mark = 'e' ∨ mark = 'E' then
        match cs with
        | '+' :: cs => readPower? false 1 cs
        | '-' :: cs => readPower? true 1 cs
        | cs => readPower? false 0 cs
      else some (none, 0)
  | [] => some (none, 0)

def readUnsigned? (negative : Bool) (sign : Nat) (text : List Char) :
    Option (Literal × Nat) := do
  let whole ← readWhole? text
  let text := text.drop whole.length
  let (fraction, fractionLength) ← readFraction? text
  let (exponent, exponentLength) ← readExponent? (text.drop fractionLength)
  return (⟨negative, whole, fraction, exponent⟩,
    sign + whole.length + fractionLength + exponentLength)

/-- The longest literal at the front of a text, and its length. A text that goes on after a sign,
point or exponent mark with no digit holds none. -/
def read? : List Char → Option (Literal × Nat)
  | '-' :: cs => readUnsigned? true 1 cs
  | cs => readUnsigned? false 0 cs

/-- The value of a literal, unless it is beyond the greatest binary number. -/
def value? (literal : Literal) : Option Number :=
  let (significand, taken) := appendDigits 0 literal.whole
  let dropped := literal.whole.length - taken
  if literal.fraction = none ∧ literal.exponent = none ∧ dropped = 0 then
    if !literal.negative then some (.integer significand)
    else if 0 < significand ∧ significand ≤ maxWord / 2 + 1 then some (.integer (-significand))
    else (Binary64.ofDecimal? true significand 0).map .real
  else
    let (significand, places) := appendDigits significand (literal.fraction.getD [])
    let exponent : Int := dropped - places + literal.exponent.getD 0
    (Binary64.ofDecimal? literal.negative significand exponent).map .real

end Literal

inductive Token where
  | openArray
  | closeArray
  | openObject
  | closeObject
  | comma
  | colon
  | null
  | bool (value : Bool)
  | number (value : Option Number)
  | string (value : Option String)
  | fault
  deriving DecidableEq, Repr

/-- Four hexadecimal digits as a number. -/
def hexUnit? (a b c d : Char) : Option Nat := do
  let a ← hexDigit? a
  let b ← hexDigit? b
  let c ← hexDigit? c
  let d ← hexDigit? d
  return ((a * 16 + b) * 16 + c) * 16 + d

def escapedChar? : Char → Option Char
  | '"' => some '"'
  | '\\' => some '\\'
  | '/' => some '/'
  | 'b' => some '\x08'
  | 'f' => some '\x0c'
  | 'n' => some '\n'
  | 'r' => some '\r'
  | 't' => some '\t'
  | _ => none

/-- Code units of the text up to a closing quote, and the length with that quote. -/
def readQuoted? : List Char → Option (List Nat × Nat)
  | [] => none
  | '"' :: _ => some ([], 1)
  | '\\' :: 'u' :: a :: b :: c :: d :: cs => do
      let unit ← hexUnit? a b c d
      let (units, length) ← readQuoted? cs
      return (unit :: units, length + 6)
  | '\\' :: letter :: cs => do
      let c ← escapedChar? letter
      let (units, length) ← readQuoted? cs
      return (c.toNat :: units, length + 2)
  | c :: cs => do
      if c.toNat < 0x20 ∨ c = '\\' then failure
      let (units, length) ← readQuoted? cs
      return (c.toNat :: units, length + 1)

def isHighSurrogate (unit : Nat) : Bool := 0xD800 ≤ unit && unit < 0xDC00

def isLowSurrogate (unit : Nat) : Bool := 0xDC00 ≤ unit && unit < 0xE000

/-- Joins surrogate pairs. There is no text when a surrogate stands alone. -/
def pairUnits? : List Nat → Option (List Char)
  | [] => some []
  | high :: rest =>
      if isHighSurrogate high then
        match rest with
        | low :: rest =>
            if isLowSurrogate low then
              (pairUnits? rest).map
                (Char.ofNat (0x10000 + (high - 0xD800) * 0x400 + (low - 0xDC00)) :: ·)
            else none
        | [] => none
      else if isLowSurrogate high then none
      else (pairUnits? rest).map (Char.ofNat high :: ·)

def isBlank (c : Char) : Bool := c == ' ' || c == '\n' || c == '\t' || c == '\r'

namespace Token

def read? : List Char → Option (Token × Nat)
  | '[' :: _ => some (openArray, 1)
  | ']' :: _ => some (closeArray, 1)
  | '{' :: _ => some (openObject, 1)
  | '}' :: _ => some (closeObject, 1)
  | ',' :: _ => some (comma, 1)
  | ':' :: _ => some (colon, 1)
  | 'n' :: 'u' :: 'l' :: 'l' :: _ => some (null, 4)
  | 't' :: 'r' :: 'u' :: 'e' :: _ => some (bool true, 4)
  | 'f' :: 'a' :: 'l' :: 's' :: 'e' :: _ => some (bool false, 5)
  | '"' :: cs =>
      (readQuoted? cs).map fun (units, length) =>
        (string ((pairUnits? units).map String.ofList), length + 1)
  | cs => (Literal.read? cs).map fun (literal, length) => (number literal.value?, length)

/-- Tokens of a text after a number of its characters, up to the first fault. -/
def scanAfter : Nat → List Char → List Token
  | _, [] => []
  | skip + 1, _ :: cs => scanAfter skip cs
  | 0, c :: cs =>
      if isBlank c then scanAfter 0 cs
      else
        match read? (c :: cs) with
        | some (token, length) => token :: scanAfter (length - 1) cs
        | none => [fault]

def scan (text : List Char) : List Token := scanAfter 0 text

end Token

end PromptRegistry.Json
