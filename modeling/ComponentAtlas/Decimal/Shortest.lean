/-!
The decimal text of a floating-point number: the fewest digits that read back as the same number,
and of these the nearest. Numbers are positional from `1e-04` up to below `1e+16`.

A finite number is `mantissa * 2 ^ exponent`. The reals that round to it reach half a step down and
up, with the ends included when the mantissa is even; below a power of two the step is halved.
-/

namespace ComponentAtlas.Decimal

/-- The sign and the exact value `mantissa * 2 ^ exponent` of a finite number. -/
structure Binary where
  negative : Bool
  mantissa : Nat
  exponent : Int

inductive Decoded where
  | finite (value : Binary)
  | infinite (negative : Bool)
  | undefined

/-- The bits of a fraction count up to this bound, at which the next exponent begins. -/
def fractionBound : Nat := Nat.pow 2 52

def decode (x : Float) : Decoded :=
  let bits : Nat := x.toBits.toNat
  let signAndField := bits / fractionBound
  let negative := signAndField / 0x800 == 1
  let field : Nat := signAndField % 0x800
  let fraction : Nat := bits % fractionBound
  if field == 0x7FF then if fraction == 0 then .infinite negative else .undefined
  else if field == 0 then .finite ⟨negative, fraction, -1074⟩
  else .finite ⟨negative, fraction + fractionBound, (field : Int) - 1075⟩

/-- `n * 2 ^ a * 10 ^ b` as a quotient. -/
def scaled (n : Nat) (a b : Int) : Nat × Nat :=
  (n * Nat.pow 2 a.toNat * Nat.pow 10 b.toNat, Nat.pow 2 (-a).toNat * Nat.pow 10 (-b).toNat)

def quotientLt (x y : Nat × Nat) : Bool := x.1 * y.2 < y.1 * x.2

/-- The reals that round to a number, as quotients. -/
structure Interval where
  low : Nat × Nat
  high : Nat × Nat
  closed : Bool

def Interval.holds (i : Interval) (x : Nat × Nat) : Bool :=
  (quotientLt i.low x && quotientLt x i.high) ||
    (i.closed && (!quotientLt x i.low && !quotientLt i.high x))

/-- Four times the value is taken, so that a quarter step below a power of two stays whole. -/
def roundingInterval (b : Binary) : Interval :=
  let m := 4 * b.mantissa
  let e := b.exponent - 2
  let down := if b.mantissa == fractionBound && b.exponent > -1074 then 1 else 2
  ⟨scaled (m - down) e 0, scaled (m + 2) e 0, b.mantissa % 2 == 0⟩

/-- Digits `d` and the power `k` with the value `d * 10 ^ k`. -/
structure Digits where
  digits : Nat
  power : Int
deriving DecidableEq

/-- The two whole numbers around a quotient, the nearer first and the even one at equal distance. -/
def neighbours (num den : Nat) : List Nat :=
  let below := num / den
  let twice := 2 * (num % den)
  if twice < den || (twice == den && below % 2 == 0) then [below, below + 1] else [below + 1, below]

/-- Of the two multiples of `10 ^ k` around the value, the one that reads back. -/
def onGrid? (b : Binary) (k : Int) : Option Digits :=
  let interval := roundingInterval b
  let (num, den) := scaled b.mantissa b.exponent (-k)
  let reads (d : Nat) : Bool := interval.holds (scaled d 0 k)
  ((neighbours num den).find? reads).map (⟨·, k⟩)

/-- The least `p` with the value below `10 ^ p`, sought upwards from `p`. -/
def magnitudeFrom (b : Binary) (p : Int) : Nat → Int
  | 0 => p
  | fuel + 1 =>
    if quotientLt (scaled b.mantissa b.exponent 0) (scaled 1 0 p) then p
    else magnitudeFrom b (p + 1) fuel

/-- Seventeen digits tell all numbers apart, so the search ends with the last grid. -/
def shortestFrom (b : Binary) (magnitude : Int) : List Nat → Digits
  | [] => ⟨0, 0⟩
  | n :: more =>
    match onGrid? b (magnitude - n) with
    | some d => d
    | none => shortestFrom b magnitude more

/-- A first guess of the magnitude from the number of binary digits, never too large. -/
def magnitudeGuess (b : Binary) : Int := ((b.mantissa.log2 : Int) + b.exponent) * 30103 / 100000 - 1

def shortest (b : Binary) : Digits :=
  shortestFrom b (magnitudeFrom b (magnitudeGuess b) 8) ((List.range 18).drop 1)

/-- Digits without the zeros at their end. -/
def stripZeros (d : Digits) : Nat → Digits
  | 0 => d
  | fuel + 1 =>
    if d.digits != 0 && d.digits % 10 == 0 then stripZeros ⟨d.digits / 10, d.power + 1⟩ fuel else d

def digitText (n : Nat) : List Char := Nat.toDigits 10 n

def zeros (n : Nat) : List Char := List.replicate n '0'

def exponentText (e : Int) : List Char :=
  let digits := digitText e.natAbs
  'e' :: (if e < 0 then '-' else '+') :: (if digits.length < 2 then '0' :: digits else digits)

/-- The text of a positive value; `point` says how many digits stand before the point. -/
def positiveText (d : Digits) : List Char :=
  let ds := digitText d.digits
  let point := (ds.length : Int) + d.power
  if -4 < point && point ≤ 16 then
    if point ≤ 0 then '0' :: '.' :: zeros (-point).toNat ++ ds
    else if point < ds.length then ds.take point.toNat ++ '.' :: ds.drop point.toNat
    else ds ++ zeros (point.toNat - ds.length) ++ ['.', '0']
  else
    match ds with
    | [] => []
    | [x] => x :: exponentText (point - 1)
    | x :: more => x :: '.' :: more ++ exponentText (point - 1)

/-- The text of a number. -/
def text (x : Float) : String :=
  match decode x with
  | .undefined => "nan"
  | .infinite negative => if negative then "-inf" else "inf"
  | .finite b =>
    let body :=
      if b.mantissa == 0 then ['0', '.', '0'] else positiveText (stripZeros (shortest b) 17)
    String.ofList (if b.negative then '-' :: body else body)

/-! Rounding to a number of places after the point. -/

/-- The nearest whole number, a half going to the even neighbour. -/
def roundHalfEven (num den : Nat) : Nat :=
  let q := num / den
  let r := num % den
  if 2 * r < den then q else if den < 2 * r then q + 1 else if q % 2 == 0 then q else q + 1

/-- The number nearest to `x` rounded to two places. -/
def roundToHundredths (x : Float) : Float :=
  match decode x with
  | .finite b =>
    let (num, den) := scaled b.mantissa b.exponent 2
    let y := Float.ofScientific (roundHalfEven num den) true 2
    if b.negative then -y else y
  | _ => x

/-- The whole part of a finite number, without its fraction. -/
def Binary.truncate (b : Binary) : Int :=
  let (num, den) := scaled b.mantissa b.exponent 0
  if b.negative then -((num / den : Nat) : Int) else ((num / den : Nat) : Int)

end ComponentAtlas.Decimal
