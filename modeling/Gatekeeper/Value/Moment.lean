/-!
# Moments

Calendar dates, alone or with a time of day, which may come with its offset from universal time. A
moment has two texts: the plain one, and the one messages show.
-/
namespace Gatekeeper

/-- A time of day. -/
structure Clock where
  hour : Nat
  minute : Nat
  second : Nat
  /-- Millionths of a second. -/
  micro : Nat
  /-- Minutes ahead of universal time. -/
  offset? : Option Int
  deriving DecidableEq, Repr, Inhabited

structure Moment where
  year : Nat
  month : Nat
  day : Nat
  clock? : Option Clock
  deriving DecidableEq, Repr, Inhabited

namespace Moment

def daysIn (year month : Nat) : Nat :=
  if month = 2 then
    if year % 4 = 0 ∧ (year % 100 ≠ 0 ∨ year % 400 = 0) then 29 else 28
  else if [4, 6, 9, 11].contains month then 30
  else 31

def minutesOfDay : Int := 1440

/-- A span of minutes as messages show it: whole days, rounded down, and seconds. -/
def spanShown (minutes : Int) : String :=
  let days := minutes / minutesOfDay
  let seconds := minutes % minutesOfDay * 60
  let parts :=
    (if days = 0 then [] else [s!"days={days}"]) ++
      if seconds = 0 then [] else [s!"seconds={seconds}"]
  "datetime.timedelta(" ++ (if parts.isEmpty then "0" else ", ".intercalate parts) ++ ")"

/-- Why there is no such offset. -/
def offsetDefect? (minutes : Int) : Option String :=
  if -minutesOfDay < minutes ∧ minutes < minutesOfDay then none
  else
    some ("offset must be a timedelta strictly between -timedelta(hours=24) and " ++
      "timedelta(hours=24), not " ++ spanShown minutes ++ ".")

/-- Why there is no such date. -/
def dateDefect? (m : Moment) : Option String :=
  if m.year = 0 then some "year 0 is out of range"
  else if m.month < 1 ∨ 12 < m.month then some "month must be in 1..12"
  else if m.day < 1 ∨ daysIn m.year m.month < m.day then some "day is out of range for month"
  else none

/-- Why there is no such time of day. -/
def clockDefect? (clock : Clock) : Option String :=
  if 23 < clock.hour then some "hour must be in 0..23"
  else if 59 < clock.minute then some "minute must be in 0..59"
  else if 59 < clock.second then some "second must be in 0..59"
  else none

/-- Why there is no such moment: first its offset counts, then its date, then its time. -/
def defect? (m : Moment) : Option String :=
  m.clock?.bind (·.offset?.bind offsetDefect?) <|> m.dateDefect? <|> m.clock?.bind clockDefect?

/-- The number of the day of a moment, one for the first day of the first year. -/
def dayNumber (m : Moment) : Nat :=
  let years := m.year - 1
  let months := List.range (m.month - 1)
  365 * years + years / 4 - years / 100 + years / 400 +
    (months.map fun month => daysIn m.year (month + 1)).foldl (· + ·) 0 + m.day

/-- The minute of a time of day by universal time. -/
def universalMinute (clock : Clock) : Int :=
  clock.hour * 60 + clock.minute - clock.offset?.getD 0

/-- The minute of a moment by universal time, with the second and its parts. -/
def instant (m : Moment) (clock : Clock) : Int × Nat × Nat :=
  (m.dayNumber * minutesOfDay + universalMinute clock, clock.second, clock.micro)

/-- Whether two moments are the same. Times with an offset are when they are the same instant; what
has an offset is never the same as what has none, nor is a time the same as a date. -/
def same (m m' : Moment) : Bool :=
  match m.clock?, m'.clock? with
  | some clock, some clock' =>
    if clock.offset?.isSome && clock'.offset?.isSome then m.instant clock == m'.instant clock'
    else m == m'
  | _, _ => m == m'

/-- A number filled up with zeros to a width. -/
def padded (width n : Nat) : String :=
  let digits := Nat.toDigits 10 n
  String.ofList (List.replicate (width - digits.length) '0' ++ digits)

def offsetText (minutes : Int) : String :=
  (if minutes < 0 then "-" else "+") ++ padded 2 (minutes.natAbs / 60) ++ ":" ++
    padded 2 (minutes.natAbs % 60)

def clockText (clock : Clock) : String :=
  padded 2 clock.hour ++ ":" ++ padded 2 clock.minute ++ ":" ++ padded 2 clock.second ++
    (if clock.micro = 0 then "" else "." ++ padded 6 clock.micro) ++
    (clock.offset?.map offsetText).getD ""

def plain (m : Moment) : String :=
  let date := padded 4 m.year ++ "-" ++ padded 2 m.month ++ "-" ++ padded 2 m.day
  match m.clock? with
  | none => date
  | some clock => date ++ " " ++ clockText clock

/-- The name of the kind of a moment. -/
def shortKind (m : Moment) : String :=
  if m.clock?.isNone then "date" else "datetime"

/-- The name of the kind of a moment in messages. -/
def kind (m : Moment) : String :=
  "datetime." ++ m.shortKind

/-- The parts of a time that are shown; seconds and their parts only if they are not zero. -/
def clockParts (clock : Clock) : List Nat :=
  [clock.hour, clock.minute] ++
    if clock.micro ≠ 0 then [clock.second, clock.micro]
    else if clock.second ≠ 0 then [clock.second]
    else []

def zoneShown (minutes : Int) : String :=
  "tzinfo=datetime.timezone" ++ if minutes = 0 then ".utc" else "(" ++ spanShown minutes ++ ")"

def shown (m : Moment) : String :=
  let numbers := [m.year, m.month, m.day] ++ (m.clock?.map clockParts).getD []
  let zone := (m.clock?.bind (·.offset?)).map zoneShown
  m.kind ++ "(" ++ ", ".intercalate (numbers.map toString ++ zone.toList) ++ ")"

end Moment

end Gatekeeper
