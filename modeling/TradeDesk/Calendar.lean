import TradeDesk.Fault

/-!
# Calendar dates and times

A `Stamp` is a calendar date of the proleptic Gregorian calendar, or such a date with a time of day
to the microsecond (`Clock`), which may carry a fixed offset from UTC in minutes. Configuration
files write them as `2001-12-14` and `2001-12-14 21:59:43.10 -5`.

`Stamp.ofDate?` and `Stamp.ofTime?` build a stamp from its fields, checking them in the order
year, month, day, hour, minute, second, each against its range; an offset must lie strictly within
a day either way (`Stamp.checkOffset`). `Stamp.repr` is the constructor form that messages show
(`datetime.date(2001, 12, 14)`), and `Stamp.text` the ISO form, with a blank between date and time
(`2001-12-14 21:59:43.100000-05:00`).
-/

namespace TradeDesk

/-- A time of day: hour, minute, second, microsecond, and the offset from UTC in minutes for a
time that has one. -/
structure Clock where
  hour : Nat
  minute : Nat
  second : Nat
  micro : Nat
  offset : Option Int
  deriving Repr, DecidableEq

/-- A calendar date, with a time of day when `clock` is present. -/
structure Stamp where
  year : Nat
  month : Nat
  day : Nat
  clock : Option Clock
  deriving Repr, DecidableEq

namespace Stamp

/-- Whether a year is a leap year of the Gregorian calendar. -/
def leap (y : Nat) : Bool := y % 4 == 0 && (y % 100 != 0 || y % 400 == 0)

/-- The number of days of a month (1 to 12) of a year. -/
def daysIn (y m : Nat) : Nat :=
  match m with
  | 2 => if leap y then 29 else 28
  | 4 | 6 | 9 | 11 => 30
  | _ => 31

/-- A date from its fields: the year within 1 to 9999, the month within 1 to 12, the day within
the days of the month. -/
def ofDate? (y m d : Nat) : Except Fault Stamp :=
  if y < 1 || y > 9999 then .error (.calendar ("year " ++ toString y ++ " is out of range"))
  else if m < 1 || m > 12 then .error (.calendar "month must be in 1..12")
  else if d < 1 || d > daysIn y m then .error (.calendar "day is out of range for month")
  else .ok ⟨y, m, d, none⟩

/-- The text of a signed duration in minutes as a day count and the seconds left over, the day
count rounded down: `datetime.timedelta(days=-1, seconds=68400)`. -/
def durationRepr (minutes : Int) : String :=
  let total := minutes * 60
  let days := total / 86400
  let seconds := total % 86400
  let parts := (if days != 0 then ["days=" ++ toString days] else []) ++
    (if seconds != 0 then ["seconds=" ++ toString seconds] else [])
  "datetime.timedelta(" ++ (if parts.isEmpty then "0" else ", ".intercalate parts) ++ ")"

/-- An offset from UTC must lie strictly between minus one day and one day. -/
def checkOffset (minutes : Int) : Except Fault Unit :=
  if -1440 < minutes && minutes < 1440 then .ok ()
  else .error (.calendar ("offset must be a timedelta strictly between -timedelta(hours=24) and " ++
    "timedelta(hours=24), not " ++ durationRepr minutes ++ "."))

/-- A date with a time of day from their fields, checked in order (see the module note); the
offset is checked before the rest. -/
def ofTime? (y m d h mi s us : Nat) (offset : Option Int) : Except Fault Stamp := do
  match offset with
  | some o => checkOffset o
  | none => pure ()
  let date ← ofDate? y m d
  if h > 23 then throw (.calendar "hour must be in 0..23")
  if mi > 59 then throw (.calendar "minute must be in 0..59")
  if s > 59 then throw (.calendar "second must be in 0..59")
  if us > 999999 then throw (.calendar "microsecond must be in 0..999999")
  pure { date with clock := some ⟨h, mi, s, us, offset⟩ }

/-- A number in decimal, padded with zeros on the left to `width` digits. -/
def padded (width n : Nat) : String :=
  let digits := toString n
  String.ofList (List.replicate (width - digits.length) '0') ++ digits

/-- The name of the type of a stamp. -/
def typeName (t : Stamp) : String :=
  if t.clock.isSome then "datetime.datetime" else "datetime.date"

/-- The constructor form of an offset: the UTC singleton for zero, else a fixed-offset zone. -/
def zoneRepr (minutes : Int) : String :=
  if minutes == 0 then "datetime.timezone.utc"
  else "datetime.timezone(" ++ durationRepr minutes ++ ")"

/-- The constructor form of a stamp: the seconds shown when they or the microseconds are not zero,
the microseconds when they are not zero, and the zone when there is an offset. -/
def repr (t : Stamp) : String :=
  let date := toString t.year ++ ", " ++ toString t.month ++ ", " ++ toString t.day
  match t.clock with
  | none => "datetime.date(" ++ date ++ ")"
  | some c =>
    let time := ", " ++ toString c.hour ++ ", " ++ toString c.minute ++
      (if c.second != 0 || c.micro != 0 then ", " ++ toString c.second else "") ++
      (if c.micro != 0 then ", " ++ toString c.micro else "")
    let zone := match c.offset with
      | some o => ", tzinfo=" ++ zoneRepr o
      | none => ""
    "datetime.datetime(" ++ date ++ time ++ zone ++ ")"

/-- An offset in the ISO form `+HH:MM`. -/
def offsetText (minutes : Int) : String :=
  let sign := if minutes < 0 then "-" else "+"
  let m := minutes.natAbs
  sign ++ padded 2 (m / 60) ++ ":" ++ padded 2 (m % 60)

/-- The ISO form of a stamp (see the module note); microseconds are shown when not zero. -/
def text (t : Stamp) : String :=
  let date := padded 4 t.year ++ "-" ++ padded 2 t.month ++ "-" ++ padded 2 t.day
  match t.clock with
  | none => date
  | some c =>
    date ++ " " ++ padded 2 c.hour ++ ":" ++ padded 2 c.minute ++ ":" ++ padded 2 c.second ++
      (if c.micro != 0 then "." ++ padded 6 c.micro else "") ++
      (match c.offset with
        | some o => offsetText o
        | none => "")

/-- The instant of a time with an offset, in microseconds from the start of year 1 in UTC. -/
def instant (t : Stamp) (c : Clock) (offset : Int) : Int :=
  let yearDays := (List.range (t.year - 1)).foldl (fun acc y => acc + (if leap (y + 1) then 366 else 365)) 0
  let monthDays := (List.range (t.month - 1)).foldl (fun acc m => acc + daysIn t.year (m + 1)) 0
  let days : Int := yearDays + monthDays + (t.day - 1)
  let seconds : Int := days * 86400 + c.hour * 3600 + c.minute * 60 + c.second - offset * 60
  seconds * 1000000 + c.micro

/-- Whether two stamps are equal: dates by their fields; times with offsets by the instant they
name; times without offsets by their fields. A date never equals a time, nor a time with an
offset one without. -/
def same (a b : Stamp) : Bool :=
  match a.clock, b.clock with
  | none, none => a == b
  | some c, some e =>
    match c.offset, e.offset with
    | some o, some p => instant a c o == instant b e p
    | none, none => a == b
    | _, _ => false
  | _, _ => false

end Stamp

end TradeDesk
