set_option autoImplicit false

/-! # Timestamps

A timestamp is a moment in universal time, given by its date and its time of day. A second may
be followed by a leap second: its nanoseconds then count on beyond a thousand million. The order
of the fields is the order of the moments. -/

namespace OverlayVpn

namespace Calendar

/-- Whether a year has a 29th of February. -/
def isLeap (year : Int) : Bool := year % 4 == 0 && (year % 100 != 0 || year % 400 == 0)

/-- The number of days of a month. -/
def daysInMonth (year : Int) (month : Nat) : Nat :=
  match month with
  | 2 => if isLeap year then 29 else 28
  | 4 | 6 | 9 | 11 => 30
  | _ => 31

/-- A date. -/
structure Date where
  year : Int
  month : Nat
  day : Nat
  deriving DecidableEq, Repr

/-- The first and the last year that can be told. -/
def firstYear : Int := -262143

/-- The last year that can be told. -/
def lastYear : Int := 262142

/-- Whether the calendar has the date. -/
def Date.valid (d : Date) : Bool :=
  firstYear ≤ d.year && d.year ≤ lastYear && 1 ≤ d.month && d.month ≤ 12 && 1 ≤ d.day &&
    d.day ≤ daysInMonth d.year d.month

/-- The day after. -/
def Date.next (d : Date) : Date :=
  if d.day < daysInMonth d.year d.month then { d with day := d.day + 1 }
  else if d.month < 12 then { d with month := d.month + 1, day := 1 }
  else ⟨d.year + 1, 1, 1⟩

/-- The day before. -/
def Date.previous (d : Date) : Date :=
  if 1 < d.day then { d with day := d.day - 1 }
  else if 1 < d.month then ⟨d.year, d.month - 1, daysInMonth d.year (d.month - 1)⟩
  else ⟨d.year - 1, 12, 31⟩

/-- The date that lies `days` days after the first of January 1970. Years are counted from March,
in eras of 400 years. -/
def Date.ofDays (days : Int) : Date :=
  let z := days + 719468
  let era := z / 146097
  let doe := (z % 146097).toNat
  let yoe := (doe - doe / 1460 + doe / 36524 - doe / 146096) / 365
  let doy := doe - (365 * yoe + yoe / 4 - yoe / 100)
  let mp := (5 * doy + 2) / 153
  let day := doy - (153 * mp + 2) / 5 + 1
  let month := if mp < 10 then mp + 3 else mp - 9
  let year : Int := (yoe : Int) + era * 400 + if month ≤ 2 then 1 else 0
  ⟨year, month, day⟩

/-- A time of day. -/
structure TimeOfDay where
  hour : Nat
  minute : Nat
  second : Nat
  nano : Nat
  deriving DecidableEq, Repr

/-- Whether a clock shows the time; a leap second extends the last second of a minute. -/
def TimeOfDay.valid (t : TimeOfDay) : Bool :=
  t.hour < 24 && t.minute < 60 && t.second < 60 && t.nano < 2000000000 &&
    (t.nano < 1000000000 || t.second == 59)

end Calendar

open Calendar

/-- A moment in universal time. -/
structure Timestamp where
  date : Date
  time : TimeOfDay
  date_valid : date.valid = true
  time_valid : time.valid = true
  deriving DecidableEq

namespace Timestamp

/-- The moment with a date and a time of day, if there are such. -/
def ofFields? (date : Date) (time : TimeOfDay) : Option Timestamp :=
  if h : date.valid = true ∧ time.valid = true then some ⟨date, time, h.1, h.2⟩ else none

/-- The moment at which clocks `offset` minutes ahead of universal time show the date and time. -/
def ofLocal? (date : Date) (time : TimeOfDay) (offset : Int) : Option Timestamp :=
  if date.valid && time.valid then
    let minutes : Int := time.hour * 60 + time.minute - offset
    let date := if minutes < 0 then date.previous else if 1440 ≤ minutes then date.next else date
    let minutes := (minutes % 1440).toNat
    ofFields? date { time with hour := minutes / 60, minute := minutes % 60 }
  else none

/-- The moment a number of seconds, and of nanoseconds, after the start of 1970. -/
def ofUnix? (seconds : Int) (nanos : Nat) : Option Timestamp :=
  let s := (seconds % 86400).toNat
  ofFields? (.ofDays (seconds / 86400))
    { hour := s / 3600, minute := s / 60 % 60, second := s % 60, nano := nanos }

/-- The fields of a moment, from the coarsest to the finest. -/
def fields (t : Timestamp) : List Int :=
  [t.date.year, t.date.month, t.date.day, t.time.hour, t.time.minute, t.time.second, t.time.nano]

/-- Whether a list of numbers comes before another in the order of dictionaries, or is it. -/
def orderedFields : List Int → List Int → Bool
  | [], _ => true
  | _ :: _, [] => false
  | a :: as, b :: bs => a < b || (a == b && orderedFields as bs)

/-- Whether a moment is not after another. -/
def notAfter (a b : Timestamp) : Bool := orderedFields a.fields b.fields

/-- The later of two moments. -/
def later (a b : Timestamp) : Timestamp := if a.notAfter b then b else a

end Timestamp

/-- A clock that has been read `ticks` times; its readings are not further known. -/
structure Clock where
  reading : Nat → Timestamp
  ticks : Nat := 0

namespace Clock

/-- The present moment, and the clock after it was read. -/
def read (clock : Clock) : Timestamp × Clock :=
  (clock.reading clock.ticks, { clock with ticks := clock.ticks + 1 })

/-- A clock that stands still. -/
def still (now : Timestamp) : Clock := { reading := fun _ => now }

end Clock

end OverlayVpn
