import DeclPieces.Number.Shortest

/-! Instants and durations in the text forms of the log. -/
namespace DeclPieces

/-- A day of the proleptic Gregorian calendar. -/
structure Date where
  year : Int
  month : Nat
  day : Nat
  deriving DecidableEq, Repr

/-- The date that lies `days` after 1970-01-01. Years are counted from March, so that a leap day ends one. -/
def Date.ofDays (days : Int) : Date :=
  let shifted := days + 719468
  let era := shifted.fdiv 146097
  let dayOfEra := (shifted.fmod 146097).toNat
  let yearOfEra := (dayOfEra - dayOfEra / 1460 + dayOfEra / 36524 - dayOfEra / 146096) / 365
  let dayOfYear := dayOfEra - (365 * yearOfEra + yearOfEra / 4 - yearOfEra / 100)
  let fromMarch := (5 * dayOfYear + 2) / 153
  let month := if fromMarch < 10 then fromMarch + 3 else fromMarch - 9
  { year := era * 400 + yearOfEra + if month ≤ 2 then 1 else 0
    month := month
    day := dayOfYear - (153 * fromMarch + 2) / 5 + 1 }

def Date.daysIn (year : Int) (month : Nat) : Nat :=
  let leap := year % 4 = 0 && (year % 100 ≠ 0 || year % 400 = 0)
  if month = 2 then (if leap then 29 else 28)
  else if [4, 6, 9, 11].contains month then 30
  else 31

/-- Is there such a day? -/
def Date.isReal (d : Date) : Bool :=
  1 ≤ d.month && d.month ≤ 12 && 1 ≤ d.day && d.day ≤ Date.daysIn d.year d.month

/-- A number with at least `width` digits. -/
def padded (width n : Nat) : Text := Decimal.pad width (Text.ofNat n)

def Date.text (d : Date) : Text :=
  let sign : Text := if d.year < 0 then "-" else ""
  sign ++ padded 4 d.year.natAbs ++ "-" ++ padded 2 d.month ++ "-" ++ padded 2 d.day

/-- The time of day `seconds` after midnight. -/
def clockText (seconds : Nat) : Text :=
  padded 2 (seconds / 3600) ++ ":" ++ padded 2 (seconds / 60 % 60) ++ ":" ++ padded 2 (seconds % 60)

/-- A second of universal time, such as `2023-11-14T22:13:20Z`. -/
def instantText (unix : Int) : Text :=
  (Date.ofDays (unix.fdiv 86400)).text ++ "T" ++ clockText (unix.fmod 86400).toNat ++ "Z"

/-- A second of universal time as people write it, such as `2023-11-14 22:13:20`. -/
def momentText (unix : Int) : Text :=
  (Date.ofDays (unix.fdiv 86400)).text ++ " " ++ clockText (unix.fmod 86400).toNat

/-- The longer form `2023-11-14 22:13:20 +0000 UTC`. -/
def instantLongText (unix : Int) : Text := momentText unix ++ " +0000 UTC"

/-- `n / 10 ^ places` without trailing zeros. -/
def fractionText (n places : Nat) : Text :=
  let digits := ((padded places (n % Nat.pow 10 places)).reverse.dropWhile (· = 48)).reverse
  let point : Text := if digits.isEmpty then "" else "."
  Text.ofNat (n / Nat.pow 10 places) ++ point ++ digits

/-- A duration in its largest units: below a second one unit, from a second on hours, minutes and seconds. -/
def durationText (nanoseconds : Int) : Text :=
  let n := nanoseconds.natAbs
  let sign : Text := if nanoseconds < 0 then "-" else ""
  let size : Text :=
    if n = 0 then "0s"
    else if n < 1000 then Text.ofNat n ++ "ns"
    else if n < 1000000 then fractionText n 3 ++ "µs"
    else if n < 1000000000 then fractionText n 6 ++ "ms"
    else
      let minutes := n / 60000000000
      let seconds := fractionText (n % 60000000000) 9 ++ "s"
      if minutes = 0 then seconds
      else if minutes < 60 then Text.ofNat minutes ++ "m" ++ seconds
      else Text.ofNat (minutes / 60) ++ "h" ++ Text.ofNat (minutes % 60) ++ "m" ++ seconds
  sign ++ size

end DeclPieces
