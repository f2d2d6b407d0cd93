import ComponentAtlas.Decimal.Shortest

/-!
Points in time as dates. Time is counted in seconds from the start of 1970, in the proleptic
Gregorian calendar without time zone.
-/

namespace ComponentAtlas

/-- Why a number of seconds has no date. -/
inductive TimeError where
  | undefined
  | unrepresentable
  | yearOverflow
  | yearOutOfRange (year : Int)
deriving DecidableEq

def TimeError.message : TimeError → String
  | .undefined => "Invalid value NaN (not a number)"
  | .unrepresentable => "timestamp out of range for platform time_t"
  | .yearOverflow => "[Errno 75] Value too large for defined data type"
  | .yearOutOfRange year => s!"year {year} is out of range"

structure Date where
  year : Int
  month : Nat
  day : Nat
deriving DecidableEq

/-- The date of a day counted from the first of January 1970. Years are taken from March on, so
that a leap day is the last of its year, in cycles of four hundred years. -/
def Date.ofDay (day : Int) : Date :=
  let fromMarch := day + 719468
  let cycle := fromMarch.fdiv 146097
  let dayOfCycle := (fromMarch.fmod 146097).toNat
  let yearOfCycle :=
    (dayOfCycle - dayOfCycle / 1460 + dayOfCycle / 36524 - dayOfCycle / 146096) / 365
  let dayOfYear := dayOfCycle - (365 * yearOfCycle + yearOfCycle / 4 - yearOfCycle / 100)
  let monthFromMarch := (5 * dayOfYear + 2) / 153
  let month := if monthFromMarch < 10 then monthFromMarch + 3 else monthFromMarch - 9
  let year := cycle * 400 + yearOfCycle
  ⟨if month ≤ 2 then year + 1 else year, month, dayOfYear - (153 * monthFromMarch + 2) / 5 + 1⟩

def secondsPerDay : Int := 86400

/-- The whole seconds of a point in time, its fraction rounded to millionths first, a half to the
even neighbour. -/
def wholeSeconds (time : Float) (b : Decimal.Binary) : Int :=
  let whole := b.truncate
  let fraction := time - (if time < 0.0 then time.ceil else time.floor)
  let millionths := fraction * 1000000.0
  if 999999.5 ≤ millionths then whole + 1
  else if millionths < -0.5 then whole - 1
  else whole

def twoDigits (n : Nat) : String := if n < 10 then s!"0{n}" else toString n

/-- The date and the time of day, as in `2023-11-14 22:13:20`. -/
def showSeconds (seconds : Int) : String :=
  let date := Date.ofDay (seconds.fdiv secondsPerDay)
  let second := (seconds.fmod secondsPerDay).toNat
  s!"{date.year}-{twoDigits date.month}-{twoDigits date.day} " ++
    s!"{twoDigits (second / 3600)}:{twoDigits (second / 60 % 60)}:{twoDigits (second % 60)}"

def yearOf (seconds : Int) : Int := (Date.ofDay (seconds.fdiv secondsPerDay)).year

/-- Whether a signed word of `bits` holds a number. -/
def fitsSigned (bits : Nat) (n : Int) : Bool :=
  let limit : Int := Nat.pow 2 (bits - 1)
  n < limit && -limit ≤ n

/-- Seconds whose year, counted from 1900, fits a signed word of 32 bits. -/
def hasYear (seconds : Int) : Bool := fitsSigned 32 (yearOf seconds - 1900)

/-- The seconds, if their year is among 1 to 9999 and so is the year of the day before. -/
def checkYear (seconds : Int) : Except TimeError Int :=
  let year := yearOf seconds
  if year < 1 || 9999 < year then .error (.yearOutOfRange (year.bmod 0x100000000))
  else if yearOf (seconds - secondsPerDay) < 1 then .error (.yearOutOfRange 0)
  else .ok seconds

/-- The date and time of a point in time. -/
def showTime (time : Float) : Except TimeError String :=
  match Decimal.decode time with
  | .undefined => .error .undefined
  | .infinite _ => .error .unrepresentable
  | .finite b =>
    let seconds := wholeSeconds time b
    if !fitsSigned 64 seconds then .error .unrepresentable
    else if !hasYear seconds then .error .yearOverflow
    else (checkYear seconds).map showSeconds

end ComponentAtlas
