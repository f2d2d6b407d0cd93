import ComponentAtlas.Text.Pieces
import ComponentAtlas.Text.Quoted

/-!
Numbers read from text as a person types them: blanks around, a sign, digits of any script, and
single underscores between digits.
-/

namespace ComponentAtlas.Decimal

open Text

/-- The four control characters that separate records are no blanks around a number. -/
def isNumberBlank (c : Char) : Bool := isBlank c && !(28 ≤ c.toNat && c.toNat ≤ 31)

def trimNumber (s : List Char) : List Char :=
  trimRightOf isNumberBlank (s.dropWhile isNumberBlank)

inductive Sign where
  | plus
  | minus
deriving DecidableEq

def takeSign : List Char → Sign × List Char
  | '+' :: rest => (.plus, rest)
  | '-' :: rest => (.minus, rest)
  | s => (.plus, s)

def Sign.apply (n : Nat) : Sign → Int
  | .plus => n
  | .minus => -n

/-- The leading stretch of digits and underscores, a digit as its value. -/
def digitRun : List Char → List (Option Nat) × List Char
  | [] => ([], [])
  | c :: rest =>
    if c == '_' then let (ds, tail) := digitRun rest; (none :: ds, tail)
    else match digitValue? c with
      | some d => let (ds, tail) := digitRun rest; (some d :: ds, tail)
      | none => ([], c :: rest)

/-- Digits joined by single underscores; `afterDigit` says what stands before. -/
def wellGrouped (afterDigit : Bool) : List (Option Nat) → Bool
  | [] => afterDigit
  | some _ :: rest => wellGrouped true rest
  | none :: rest => afterDigit && wellGrouped false rest

def digitsValue (ds : List Nat) : Nat := ds.foldl (fun n d => 10 * n + d) 0

/-- Longer runs of digits are refused, whatever their value. -/
def maxDigits : Nat := 4300

inductive WholeError where
  | malformed (given : String)
  | tooLong (digits : Nat)
deriving DecidableEq

/-- The quoted text in the message is cut after two hundred characters. -/
def WholeError.message : WholeError → String
  | .malformed given =>
    "invalid literal for int() with base 10: " ++
      String.ofList ((quotedChars given.toList).take 200)
  | .tooLong digits =>
    s!"Exceeds the limit ({maxDigits}) for integer string conversion: " ++
      s!"value has {digits} digits; use sys.set_int_max_str_digits() to increase the limit"

/-- A whole number. -/
def whole? (s : String) : Except WholeError Int :=
  let (sign, body) := takeSign (trimNumber s.toList)
  let (run, tail) := digitRun body
  let digits := run.filterMap id
  if !wellGrouped false run then .error (.malformed s)
  else if maxDigits < digits.length then .error (.tooLong digits.length)
  else if tail.isEmpty then .ok (sign.apply (digitsValue digits))
  else .error (.malformed s)

/-! Numbers with a point and an exponent. -/

/-- A number before rounding: `± digits * 10 ^ power`, or one of the special values. -/
inductive Reading where
  | value (sign : Sign) (digits : Nat) (power : Int)
  | infinite (sign : Sign)
  | undefined

/-- Powers beyond this bound make every number with fewer digits infinite or zero. -/
def powerBound : Nat := 400

def pow10 (sign : Sign) (digits : Nat) (power : Int) : Float :=
  let length := (Nat.toDigits 10 digits).length
  let x :=
    if digits == 0 then 0.0
    else if power + length > powerBound then Float.ofScientific 1 false powerBound
    else if power + length < -(powerBound : Int) then 0.0
    else Float.ofScientific digits (power < 0) power.natAbs
  if sign = .minus then -x else x

def Reading.toFloat : Reading → Float
  | .value sign digits power => pow10 sign digits power
  | .infinite .plus => 1.0 / 0.0
  | .infinite .minus => -1.0 / 0.0
  | .undefined => 0.0 / 0.0

/-- Digits after an optional part; `none` where underscores are misplaced. -/
def groupedDigits? (s : List Char) : Option (List Nat × List Char) :=
  let (run, tail) := digitRun s
  if run.isEmpty then some ([], tail)
  else if wellGrouped false run then some (run.filterMap id, tail)
  else none

def exponent? : List Char → Option (Int × List Char)
  | [] => some (0, [])
  | c :: rest =>
    if c == 'e' || c == 'E' then
      let (sign, body) := takeSign rest
      match groupedDigits? body with
      | some (d :: ds, tail) => some (sign.apply (digitsValue (d :: ds)), tail)
      | _ => none
    else some (0, c :: rest)

def fraction? : List Char → Option (List Nat × List Char)
  | '.' :: rest => groupedDigits? rest
  | s => some ([], s)

def lowerAscii (s : List Char) : List Char := s.map Char.toLower

def readUnsigned? (sign : Sign) (s : List Char) : Option Reading :=
  let name := String.ofList (lowerAscii s)
  if name == "inf" || name == "infinity" then some (.infinite sign)
  else if name == "nan" then some .undefined
  else do
    let (whole, afterWhole) ← groupedDigits? s
    let (fraction, afterFraction) ← fraction? afterWhole
    let (power, rest) ← exponent? afterFraction
    if (whole ++ fraction).isEmpty || !rest.isEmpty then none
    else some (.value sign (digitsValue (whole ++ fraction)) (power - fraction.length))

/-- The number that a text stands for, before rounding. -/
def reading? (s : String) : Option Reading :=
  let (sign, body) := takeSign (trimNumber s.toList)
  readUnsigned? sign body

/-- The floating-point number nearest to a whole one, infinite where none is near. -/
def ofWhole (n : Int) : Float :=
  let x := Float.ofScientific n.natAbs false 0
  if n < 0 then -x else x

/-- The floating-point number nearest to what the text says. -/
def float? (s : String) : Option Float := (reading? s).map Reading.toFloat

end ComponentAtlas.Decimal
