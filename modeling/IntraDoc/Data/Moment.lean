import IntraDoc.Text.Numeral

/-!
# Dates and times

A moment is a day of the calendar, a time of the day, or both, and then possibly its distance from
universal time.
-/

namespace IntraDoc

/-- A day of the calendar. -/
structure Day where
  /-- The year, from 1 to 9999. -/
  year : Nat
  /-- The month. -/
  month : Nat
  /-- The day of the month. -/
  day : Nat
deriving DecidableEq, Repr

/-- A time of the day. -/
structure Clock where
  /-- The hour. -/
  hour : Nat
  /-- The minute. -/
  minute : Nat
  /-- The second. -/
  second : Nat
  /-- The millionths of a second. -/
  micro : Nat
deriving DecidableEq, Repr

/-- A distance from universal time. -/
structure Offset where
  /-- The minutes ahead of universal time. -/
  minutes : Int
  /-- What it is called; universal time itself needs no name. -/
  name : Option Text
deriving DecidableEq, Repr

/-- A date, a time, or both. -/
inductive Moment where
  /-- A day alone. -/
  | date (day : Day)
  /-- A time alone. -/
  | time (clock : Clock)
  /-- A time of a day, possibly with its distance from universal time. -/
  | dateTime (day : Day) (clock : Clock) (offset : Option Offset)
deriving DecidableEq, Repr

/-- Why there is no such moment. -/
inductive MomentError where
  /-- The calendar has no such year. -/
  | year (value : Nat)
  /-- The year has no such month. -/
  | month
  /-- The month has no such day. -/
  | day
  /-- The day has no such hour. -/
  | hour
  /-- The hour has no such minute. -/
  | minute
  /-- The minute has no such second. -/
  | second
  /-- No place is that many minutes from universal time. -/
  | offset (minutes : Int)
  /-- The calendar has no day after its last. -/
  | overflow
deriving DecidableEq, Repr

namespace Day

/-- The number of days of a month. -/
def monthLength (year month : Nat) : Nat :=
  if month = 2 then
    if year % 4 = 0 && (year % 100 ≠ 0 || year % 400 = 0) then 29 else 28
  else if month = 4 || month = 6 || month = 9 || month = 11 then 30
  else 31

/-- Whether the calendar has such a day. -/
def isValid (day : Day) : Bool :=
  1 ≤ day.year && day.year ≤ 9999 && 1 ≤ day.month && day.month ≤ 12 && 1 ≤ day.day &&
    day.day ≤ monthLength day.year day.month

/-- Checks that the calendar has such a day. -/
def check (day : Day) : Except MomentError Unit :=
  if day.year < 1 || 9999 < day.year then .error (.year day.year)
  else if day.month < 1 || 12 < day.month then .error .month
  else if day.isValid then .ok ()
  else .error .day

/-- The number of days from the beginning of the calendar. -/
def number (day : Day) : Nat :=
  let years := day.year - 1
  let months := (List.range (day.month - 1)).map fun month => monthLength day.year (month + 1)
  365 * years + years / 4 - years / 100 + years / 400 + months.foldl (· + ·) 0 + day.day

/-- The day after, if the calendar goes on. -/
def next? (day : Day) : Option Day :=
  if day.day < monthLength day.year day.month then some { day with day := day.day + 1 }
  else if day.month < 12 then some ⟨day.year, day.month + 1, 1⟩
  else if day.year < 9999 then some ⟨day.year + 1, 1, 1⟩
  else none

/-- The day as year, month and day. -/
def display (day : Day) : Text :=
  Text.padLeft '0' 4 (Text.ofNat day.year) ++ ['-'] ++ Text.padLeft '0' 2 (Text.ofNat day.month) ++
    ['-'] ++ Text.padLeft '0' 2 (Text.ofNat day.day)

end Day

namespace Clock

/-- Whether a day has such a time. -/
def isValid (clock : Clock) : Bool :=
  clock.hour ≤ 23 && clock.minute ≤ 59 && clock.second ≤ 59

/-- Checks that a day has such a time. -/
def check (clock : Clock) : Except MomentError Unit :=
  if 23 < clock.hour then .error .hour
  else if 59 < clock.minute then .error .minute
  else if 59 < clock.second then .error .second
  else .ok ()

/-- The number of seconds from the beginning of the day. -/
def seconds (clock : Clock) : Nat :=
  (clock.hour * 60 + clock.minute) * 60 + clock.second

/-- The time of the day after that many seconds, less than a day. -/
def ofSeconds (seconds micro : Nat) : Clock :=
  ⟨seconds / 3600, seconds / 60 % 60, seconds % 60, micro⟩

/-- The time as hour, minute and second, with the millionths if there are any. -/
def display (clock : Clock) : Text :=
  let two (value : Nat) := Text.padLeft '0' 2 (Text.ofNat value)
  two clock.hour ++ [':'] ++ two clock.minute ++ [':'] ++ two clock.second ++
    (if clock.micro = 0 then [] else '.' :: Text.padLeft '0' 6 (Text.ofNat clock.micro))

end Clock

namespace Offset

/-- The distance in minutes as days and seconds, as it is shown inside another value. -/
def literalMinutes (minutes : Int) : Text :=
  let days := minutes / (24 * 60)
  let seconds := 60 * (minutes % (24 * 60))
  let parts :=
    (if days = 0 then [] else ["days=".toList ++ Text.ofInt days]) ++
      (if seconds = 0 then [] else ["seconds=".toList ++ Text.ofInt seconds])
  let shown := if parts.isEmpty then ['0'] else Text.joinWith ", ".toList parts
  "datetime.timedelta(".toList ++ shown ++ [')']

/-- Checks that the distance is less than a day. -/
def check (offset : Offset) : Except MomentError Unit :=
  if offset.minutes.natAbs < 24 * 60 then .ok () else .error (.offset offset.minutes)

/-- The distance as hours and minutes. -/
def display (offset : Offset) : Text :=
  let two (value : Nat) := Text.padLeft '0' 2 (Text.ofNat value)
  let minutes := offset.minutes.natAbs
  (if offset.minutes < 0 then '-' else '+') :: two (minutes / 60) ++ [':'] ++ two (minutes % 60)

/-- The distance as it is shown inside another value. -/
def literal (offset : Offset) : Text :=
  match offset.name with
  | none => "datetime.timezone.utc".toList
  | some name =>
    "datetime.timezone(".toList ++ literalMinutes offset.minutes ++ ", '".toList ++ name ++
      "')".toList

end Offset

/-- What is said about a moment that does not exist. -/
def MomentError.message : MomentError → Text
  | year value => "year ".toList ++ Text.ofNat value ++ " is out of range".toList
  | month => "month must be in 1..12".toList
  | day => "day is out of range for month".toList
  | hour => "hour must be in 0..23".toList
  | minute => "minute must be in 0..59".toList
  | second => "second must be in 0..59".toList
  | offset minutes =>
    "offset must be a timedelta strictly between -timedelta(hours=24) and ".toList ++
      "timedelta(hours=24), not ".toList ++ Offset.literalMinutes minutes ++ ['.']
  | overflow => "date value out of range".toList

namespace Moment

/-- The moment as it is written. -/
def display : Moment → Text
  | date day => day.display
  | time clock => clock.display
  | dateTime day clock offset =>
    day.display ++ [' '] ++ clock.display ++ (offset.map Offset.display).getD []

/-- Numbers with commas between, in parentheses behind a name. -/
def literalCall (name : Text) (numbers : List Nat) (last : Text) : Text :=
  name ++ ['('] ++ Text.joinWith ", ".toList (numbers.map Text.ofNat) ++ last ++ [')']

/-- The seconds and millionths of a time, without those at the end that are zero. -/
def fineParts (clock : Clock) : List Nat :=
  if clock.micro ≠ 0 then [clock.second, clock.micro]
  else if clock.second ≠ 0 then [clock.second]
  else []

/-- The moment as it is shown inside another value: by the numbers it is made of. -/
def literal : Moment → Text
  | date day => literalCall "datetime.date".toList [day.year, day.month, day.day] []
  | time clock =>
    literalCall "datetime.time".toList ([clock.hour, clock.minute] ++ fineParts clock) []
  | dateTime day clock offset =>
    literalCall "datetime.datetime".toList
      ([day.year, day.month, day.day, clock.hour, clock.minute] ++ fineParts clock)
      ((offset.map fun offset => ", tzinfo=".toList ++ offset.literal).getD [])

/-- Checks that the moment exists; its distance from universal time comes first. -/
def check : Moment → Except MomentError Unit
  | date day => day.check
  | time clock => clock.check
  | dateTime day clock offset => do
    match offset with
    | some offset => offset.check
    | none => .ok ()
    day.check
    clock.check

/-- The moment one second later. -/
def nextSecond : Moment → Except MomentError Moment
  | dateTime day clock offset =>
    let seconds := clock.seconds + 1
    if seconds < 24 * 60 * 60 then
      .ok (.dateTime day (Clock.ofSeconds seconds clock.micro) offset)
    else
      match day.next? with
      | some day => .ok (.dateTime day (Clock.ofSeconds 0 clock.micro) offset)
      | none => .error .overflow
  | moment => .ok moment

/-- The millionths of a second from the beginning of universal time, if the distance is known. -/
def universal? : Moment → Option Int
  | dateTime day clock (some offset) =>
    let seconds : Int := day.number * 24 * 60 * 60 + clock.seconds - 60 * offset.minutes
    some (seconds * 1000000 + clock.micro)
  | _ => none

/-- Whether two moments are the same, at whatever place. -/
def same (moment moment' : Moment) : Bool :=
  match moment.universal?, moment'.universal? with
  | some here, some there => here = there
  | _, _ => moment = moment'

/-- Whether the calendar and the day have such a moment. -/
def isValid : Moment → Bool
  | date day => day.isValid
  | time clock => clock.isValid
  | dateTime day clock _ => day.isValid && clock.isValid

end Moment

end IntraDoc
