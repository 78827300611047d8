import TableStore.Number.Reading

/-!
# Points in time

A timestamp counts milliseconds since the beginning of 1970 in UTC. It is written as a date and a
time of day on the Gregorian calendar: `Timestamp.text` ends in `Z` and shows milliseconds only when
there are any, `Timestamp.longText` always shows them and ends in `+00:00`.
-/

namespace TableStore

/-- Milliseconds since the beginning of 1970. -/
structure Timestamp where
  millis : Int
deriving DecidableEq, Inhabited

namespace Timestamp

/-- The timestamp without its fraction of a second. -/
def truncated (t : Timestamp) : Timestamp :=
  ⟨t.millis / 1000 * 1000⟩

/-- A date of the Gregorian calendar. -/
structure Date where
  year : Int
  month : Nat
  day : Nat
deriving DecidableEq

/-- The date so many days after the first of January 1970. Years are counted from March, so that
the leap day is the last one, in cycles of four hundred years. -/
def Date.ofDays (days : Int) : Date :=
  let shifted := days + 719468
  let era := shifted / 146097
  let dayOfEra := shifted % 146097
  let yearOfEra := (dayOfEra - dayOfEra / 1460 + dayOfEra / 36524 - dayOfEra / 146096) / 365
  let dayOfYear := dayOfEra - (365 * yearOfEra + yearOfEra / 4 - yearOfEra / 100)
  let monthFromMarch := (5 * dayOfYear + 2) / 153
  let day := dayOfYear - (153 * monthFromMarch + 2) / 5 + 1
  -- January and February close the year that began in March before
  let month := if monthFromMarch < 10 then monthFromMarch + 3 else monthFromMarch - 9
  let year := yearOfEra + era * 400 + (if month ≤ 2 then 1 else 0)
  ⟨year, month.toNat, day.toNat⟩

/-- The days from the first of January 1970 to a date. -/
def Date.toDays (d : Date) : Int :=
  let year := if d.month ≤ 2 then d.year - 1 else d.year
  let era := year / 400
  let yearOfEra := year % 400
  let monthFromMarch : Int := if 2 < d.month then d.month - 3 else d.month + 9
  let dayOfYear := (153 * monthFromMarch + 2) / 5 + d.day - 1
  let dayOfEra := yearOfEra * 365 + yearOfEra / 4 - yearOfEra / 100 + dayOfYear
  era * 146097 + dayOfEra - 719468

/-- A number with at least so many digits. -/
def padded (width n : Nat) : String :=
  String.ofList (Decimal.padded width n)

/-- A year: four digits, with a sign when they do not do. -/
def yearText (year : Int) : String :=
  if 0 ≤ year ∧ year ≤ 9999 then padded 4 year.toNat
  else (if year < 0 then "-" else "+") ++ padded 4 year.natAbs

/-- Date and time of day, without the fraction of a second. -/
def secondsText (t : Timestamp) : String :=
  let seconds := t.millis / 1000
  let date := Date.ofDays (seconds / 86400)
  let ofDay := (seconds % 86400).toNat
  yearText date.year ++ "-" ++ padded 2 date.month ++ "-" ++ padded 2 date.day ++ "T" ++
    padded 2 (ofDay / 3600) ++ ":" ++ padded 2 (ofDay / 60 % 60) ++ ":" ++ padded 2 (ofDay % 60)

/-- The milliseconds after the last whole second. -/
def fraction (t : Timestamp) : Nat :=
  (t.millis % 1000).toNat

/-- The written form. -/
def text (t : Timestamp) : String :=
  t.secondsText ++ (if t.fraction = 0 then "" else "." ++ padded 3 t.fraction) ++ "Z"

/-- The written form that always shows milliseconds. -/
def longText (t : Timestamp) : String :=
  t.secondsText ++ "." ++ padded 3 t.fraction ++ "+00:00"

/-- Reads a number of exactly so many digits. -/
def readNumber? (width : Nat) (cs : List Char) : Option (Nat × List Char) :=
  let head := cs.take width
  if head.length = width ∧ head.all Char.isDigit then
    some (Numeral.value (Numeral.digits head).1, cs.drop width)
  else none

/-- Reads one given character. -/
def readMark? (mark : Char) : List Char → Option (List Char)
  | c :: rest => if c = mark then some rest else none
  | [] => none

/-- Reads the written form; digits of the fraction beyond the third are dropped. -/
def read? (s : String) : Option Timestamp := do
  let (year, cs) ← readNumber? 4 s.toList
  let (month, cs) ← readNumber? 2 (← readMark? '-' cs)
  let (day, cs) ← readNumber? 2 (← readMark? '-' cs)
  let (hour, cs) ← readNumber? 2 (← readMark? 'T' cs)
  let (minute, cs) ← readNumber? 2 (← readMark? ':' cs)
  let (second, cs) ← readNumber? 2 (← readMark? ':' cs)
  let (millis, cs) ←
    match cs with
    | '.' :: rest =>
      let (ds, rest) := Numeral.digits rest
      if ds.isEmpty then none
      else some (Numeral.value ((ds ++ [0, 0, 0]).take 3), rest)
    | cs => some (0, cs)
  guard (cs = ['Z'])
  let ofDay := hour * 3600 + minute * 60 + second
  let seconds := Date.toDays ⟨year, month, day⟩ * 86400 + (ofDay : Nat)
  return ⟨seconds * 1000 + millis⟩

end Timestamp
end TableStore
