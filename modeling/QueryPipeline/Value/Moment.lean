import QueryPipeline.Text.Digits

/-!
# Moments

A moment is a number of milliseconds since the start of 1970. `Moment.ofText?` reads the internet
date-time form `2024-01-02T03:04:05.678+00:00`; `Moment.text` shows a moment in messages. Days and
dates are converted by whole eras of four hundred years.
-/

namespace QueryPipeline.Moment

open Text

/-- A year with a twenty-ninth of February. -/
def isLeap (year : Int) : Bool :=
  year % 4 == 0 && (year % 100 != 0 || year % 400 == 0)

/-- The number of days of a month, counted from one. -/
def daysInMonth (year : Int) (month : Nat) : Nat :=
  if month = 2 then (if isLeap year then 29 else 28)
  else if month = 4 ∨ month = 6 ∨ month = 9 ∨ month = 11 then 30
  else 31

/-- The number of days from the start of 1970 to a date. -/
def daysFromDate (year : Int) (month day : Nat) : Int :=
  let y := if month ≤ 2 then year - 1 else year
  let era := y.fdiv 400
  let yearOfEra := y - era * 400
  let shifted := (month + 9) % 12
  let dayOfYear : Int := ((153 * shifted + 2) / 5 + day : Nat) - 1
  let dayOfEra := yearOfEra * 365 + yearOfEra / 4 - yearOfEra / 100 + dayOfYear
  era * 146097 + dayOfEra - 719468

/-- The date a number of days from the start of 1970: year, month and day. -/
def dateFromDays (days : Int) : Int × Nat × Nat :=
  let z := days + 719468
  let era := z.fdiv 146097
  let dayOfEra := (z - era * 146097).toNat
  let yearOfEra := (dayOfEra - dayOfEra / 1460 + dayOfEra / 36524 - dayOfEra / 146096) / 365
  let dayOfYear := dayOfEra - (365 * yearOfEra + yearOfEra / 4 - yearOfEra / 100)
  let shifted := (5 * dayOfYear + 2) / 153
  let day := dayOfYear - (153 * shifted + 2) / 5 + 1
  let month := if shifted < 10 then shifted + 3 else shifted - 9
  let year := (yearOfEra : Int) + era * 400 + (if month ≤ 2 then 1 else 0)
  (year, month, day)

/-! ## Reading -/

/-- Reads exactly `count` digits, for a positive count. -/
def digits? (count : Nat) (text : List Char) : Option (Nat × List Char) :=
  let head := text.take count
  if head.length = count then (natural? head).map fun n => (n, text.drop count) else none

/-- Reads one given character. -/
def mark? (expected : Char) : List Char → Option (List Char)
  | c :: rest => if c = expected then some rest else none
  | [] => none

/-- Reads a fraction of a second, if there is one, in nanoseconds; later digits count for nothing. -/
def fraction? : List Char → Option (Nat × List Char)
  | '.' :: rest =>
    let digits := rest.takeWhile Char.isDigit
    if digits = [] then none
    else
      let nine := (digits ++ List.replicate 9 '0').take 9
      some (digitsValue nine, rest.dropWhile Char.isDigit)
  | rest => some (0, rest)

/-- Reads the distance from universal time that ends the text, in seconds. -/
def offset? : List Char → Option Int
  | ['Z'] | ['z'] => some 0
  | sign :: rest => do
    let (hours, rest) ← digits? 2 rest
    let rest ← mark? ':' rest
    let (minutes, rest) ← digits? 2 rest
    let seconds : Int := (hours * 3600 + minutes * 60 : Nat)
    if rest ≠ [] ∨ 23 < hours ∨ 59 < minutes then none
    else if sign = '+' then some seconds
    else if sign = '-' then some (-seconds)
    else none
  | [] => none

/-- The last second of a month in universal time, the only one a leap second may follow. -/
def isEndOfMonth (seconds : Int) : Bool :=
  let (_, _, day) := dateFromDays ((seconds + 1).fdiv 86400)
  (seconds + 1) % 86400 == 0 && day == 1

/-- Reads the character between the date and the time of day: any one of ASCII. -/
def separator? : List Char → Option (List Char)
  | c :: rest => if c.toNat < 128 then some rest else none
  | [] => none

/-- Reads a date, a separator, a time of day and a distance from universal time. -/
def ofText? (text : String) : Option Int64 := do
  let (year, rest) ← digits? 4 text.toList
  let rest ← mark? '-' rest
  let (month, rest) ← digits? 2 rest
  let rest ← mark? '-' rest
  let (day, rest) ← digits? 2 rest
  let rest ← separator? rest
  let (hour, rest) ← digits? 2 rest
  let rest ← mark? ':' rest
  let (minute, rest) ← digits? 2 rest
  let rest ← mark? ':' rest
  let (second, rest) ← digits? 2 rest
  let (nanoseconds, rest) ← fraction? rest
  let offset ← offset? rest
  if month < 1 ∨ 12 < month ∨ day < 1 ∨ daysInMonth year month < day then none
  if 23 < hour ∨ 59 < minute ∨ 60 < second then none
  let days := daysFromDate year month day
  let whole := days * 86400 + (hour * 3600 + minute * 60 + min second 59 : Nat) - offset
  if second = 60 ∧ !isEndOfMonth whole then none
  let fraction : Int := if second = 60 then 999999999 else nanoseconds
  return Int64.ofInt ((whole * 1000000000 + fraction).tdiv 1000000)

/-! ## Showing -/

/-- A natural number with zeros in front up to a width. -/
def padded (width n : Nat) : List Char :=
  let digits := natural n
  List.replicate (width - digits.length) '0' ++ digits

/-- Milliseconds after the point, without zeros at the end but with one digit at least. -/
def fractionText (milliseconds : Nat) : List Char :=
  let digits := padded 3 milliseconds
  match (digits.reverse.dropWhile (· == '0')).reverse with
  | [] => ['0']
  | shown => shown

/-- The moment as a date and a time of day in universal time. -/
def text (moment : Int64) : String :=
  let days := moment.toInt.fdiv 86400000
  let time := (moment.toInt - days * 86400000).toNat
  let (year, month, day) := dateFromDays days
  if year < -9999 ∨ 9999 < year then String.ofList (integer moment.toInt)
  else
    let yearText := (if year < 0 then ['-'] else []) ++ padded 4 year.natAbs
    String.ofList (yearText ++ ['-'] ++ padded 2 month ++ ['-'] ++ padded 2 day ++ [' '] ++
      natural (time / 3600000) ++ [':'] ++ padded 2 (time / 60000 % 60) ++ [':'] ++
      padded 2 (time / 1000 % 60) ++ ['.'] ++ fractionText (time % 1000) ++
      " +00:00:00".toList)

end QueryPipeline.Moment
