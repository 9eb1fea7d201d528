import PromptRegistry.Text.Basic

/-! # Binary numbers of 64 bits -/

namespace PromptRegistry

/-- The number `significand * 2 ^ exponent`, negated where the sign says so. -/
structure Binary64 where
  negative : Bool
  significand : Nat
  exponent : Int
  deriving DecidableEq, Repr

/-- The quotient rounded to the nearest natural, a half to the even one. -/
def roundHalfEven (num den : Nat) : Nat :=
  let q := num / den
  let r := num % den
  if 2 * r < den then q else if den < 2 * r then q + 1 else q + q % 2

/-- Powers of two and of ten. A negative exponent counts as zero. -/
def twoTo (exponent : Int) : Nat := Nat.pow 2 exponent.toNat

def tenTo (exponent : Int) : Nat := Nat.pow 10 exponent.toNat

/-- The exponent of the largest power of two that is not above a positive ratio. -/
def floorLog2 (num den : Nat) : Int :=
  let guess : Int := (num.log2 : Int) - den.log2
  if num * twoTo (-guess) < den * twoTo guess then guess - 1 else guess

namespace Binary64

def leastExponent : Int := -1074

def greatestExponent : Int := 971

/-- The least significand of a number that is not near zero. -/
def leastNormal : Nat := Nat.pow 2 52

def zero (negative : Bool) : Binary64 := ⟨negative, 0, leastExponent⟩

/-- The number nearest to a ratio, unless the ratio rounds beyond the greatest number. -/
def nearest? (negative : Bool) (num den : Nat) : Option Binary64 :=
  if num = 0 then some (zero negative)
  else
    let exponent := max (floorLog2 num den - 52) leastExponent
    let significand := roundHalfEven (num * twoTo (-exponent)) (den * twoTo exponent)
    let rounded : Binary64 :=
      if significand = 2 * leastNormal then ⟨negative, leastNormal, exponent + 1⟩
      else ⟨negative, significand, exponent⟩
    if greatestExponent < rounded.exponent then none else some rounded

def numerator (x : Binary64) : Nat := x.significand * twoTo x.exponent

def denominator (x : Binary64) : Nat := twoTo (-x.exponent)

/-- The number nearest to a power of ten, for exponents up to 308. -/
def powerOfTen (k : Nat) : Binary64 := (nearest? false (tenTo k) 1).getD (zero false)

def mul? (x y : Binary64) : Option Binary64 :=
  nearest? x.negative (x.numerator * y.numerator) (x.denominator * y.denominator)

def div (x y : Binary64) : Binary64 :=
  (nearest? x.negative (x.numerator * y.denominator) (x.denominator * y.numerator)).getD
    (zero x.negative)

/-- Divides by the greatest power of ten so many times, or until nothing is left. -/
def divideAgain : Nat → Binary64 → Binary64
  | 0, x => x
  | steps + 1, x =>
      if x.significand = 0 then x else divideAgain steps (x.div (powerOfTen 308))

/-- Divides by ten to the power `k`, in steps of at most 308 places. -/
def scaleDown (x : Binary64) (k : Nat) : Binary64 :=
  let steps := (k - 1) / 308
  (divideAgain steps x).div (powerOfTen (k - 308 * steps))

/-- The number for `digits * 10 ^ exponent`: the digits are rounded first, and the product or
quotient with the power of ten is rounded again. There is none beyond the greatest number. -/
def ofDecimal? (negative : Bool) (digits : Nat) (exponent : Int) : Option Binary64 :=
  match nearest? negative digits 1 with
  | none => none
  | some x =>
      if exponent < 0 then some (x.scaleDown (-exponent).toNat)
      else if x.significand = 0 then some x
      else if 308 < exponent then none
      else x.mul? (powerOfTen exponent.toNat)

end Binary64

namespace Binary64

/-- The magnitude on a grid of quarter units, with the ends of the interval that rounds to it. -/
structure Interval where
  low : Nat
  value : Nat
  high : Nat
  closed : Bool

def interval (x : Binary64) : Interval :=
  let m := 4 * x.significand
  let low := if x.significand = leastNormal ∧ leastExponent < x.exponent then m - 1 else m - 2
  ⟨low, m, m + 2, x.significand % 2 == 0⟩

/-- The multiple of `10 ^ exponent` in the interval that is nearest to the value, if there is
one. -/
def onGrid? (i : Interval) (quarter exponent : Int) : Option Nat :=
  let scale := twoTo quarter * tenTo (-exponent)
  let unit := twoTo (-quarter) * tenTo exponent
  let inside (d : Nat) : Bool :=
    if i.closed then i.low * scale ≤ d * unit && d * unit ≤ i.high * scale
    else i.low * scale < d * unit && d * unit < i.high * scale
  let below := i.value * scale / unit
  let nearer := roundHalfEven (i.value * scale) unit
  if inside nearer then some nearer
  else if inside below then some below
  else if inside (below + 1) then some (below + 1)
  else none

def search (i : Interval) (quarter : Int) : Nat → Int → Nat × Int
  | 0, exponent => (i.value, exponent)
  | fuel + 1, exponent =>
      match onGrid? i quarter exponent with
      | some digits => (digits, exponent)
      | none => search i quarter fuel (exponent - 1)

/-- Digits and exponent of the shortest decimal that reads back as a positive magnitude. -/
def shortest (x : Binary64) : Nat × Int :=
  let quarter := x.exponent - 2
  let start := (x.exponent + x.significand.log2 + 1) * 30103 / 100000 + 1
  search x.interval quarter 400 start

/-- The text of a magnitude with the given digits, of which the last counts powers of ten. -/
def layOut (digits : List Char) (exponent : Int) : List Char :=
  let places := digits.length + exponent
  if -5 < places ∧ places ≤ 16 then
    if 0 ≤ exponent then digits ++ List.replicate exponent.toNat '0' ++ ['.', '0']
    else if 0 < places then digits.take places.toNat ++ '.' :: digits.drop places.toNat
    else '0' :: '.' :: List.replicate (-places).toNat '0' ++ digits
  else
    let power := places - 1
    let sign := if power < 0 then '-' else '+'
    let mantissa := match digits with
      | [] => []
      | [d] => [d]
      | d :: ds => d :: '.' :: ds
    mantissa ++ 'e' :: sign :: decimalText power.natAbs

def text (x : Binary64) : List Char :=
  let sign := if x.negative then ['-'] else []
  if x.significand = 0 then sign ++ ['0', '.', '0']
  else
    let (digits, exponent) := x.shortest
    sign ++ layOut (decimalText digits) exponent

end Binary64

end PromptRegistry
