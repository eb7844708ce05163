import SpecDraft.Number.Decimal

/-!
# Moments in time

A moment is a count of microseconds since the start of 1970 in coordinated universal time. Its
two texts, with milliseconds and with microseconds, are those of ISO 8601.

Log records and files keep a moment as a binary64 number of seconds. From the year 2242 on such
numbers lie more than a microsecond apart, so that the moment they stand for may be another one.
-/
set_option autoImplicit false

namespace SpecDraft

/-- A moment: microseconds since the start of 1970. -/
structure Moment where
  micros : Int
  deriving DecidableEq, Repr, Inhabited

/-- A calendar date of the Gregorian calendar. -/
structure Date where
  year : Int
  month : Nat
  day : Nat
  deriving DecidableEq, Repr

namespace Date

/-- The date of a day, counted from the start of 1970. Days are counted in eras of 400 years
that start in March, so that a leap day is the last day of its year. -/
def ofDay (day : Int) : Date :=
  let shifted := day + 719468
  let era := shifted.fdiv 146097
  let dayOfEra := (shifted - era * 146097).toNat
  let yearOfEra := (dayOfEra - dayOfEra / 1460 + dayOfEra / 36524 - dayOfEra / 146096) / 365
  let dayOfYear := dayOfEra - (365 * yearOfEra + yearOfEra / 4 - yearOfEra / 100)
  let fromMarch := (5 * dayOfYear + 2) / 153
  let month := if fromMarch < 10 then fromMarch + 3 else fromMarch - 9
  { year := yearOfEra + era * 400 + (if month ≤ 2 then 1 else 0)
    month := month
    day := dayOfYear - (153 * fromMarch + 2) / 5 + 1 }

end Date

namespace Moment

/-- A number with at least `width` digits. -/
def padded (width n : Nat) : String :=
  let text := Decimal.digitText n
  Decimal.zeros (width - text.length) ++ text

/-- The whole seconds since the start of 1970. -/
def seconds (m : Moment) : Int := m.micros.fdiv 1000000

/-- The microseconds past the whole second. -/
def fraction (m : Moment) : Nat := (m.micros.fmod 1000000).toNat

/-- Date and time of day, to the second. -/
def dateTime (m : Moment) : String :=
  let date := Date.ofDay (m.seconds.fdiv 86400)
  let second := (m.seconds.fmod 86400).toNat
  padded 4 date.year.toNat ++ "-" ++ padded 2 date.month ++ "-" ++ padded 2 date.day ++ "T" ++
    padded 2 (second / 3600) ++ ":" ++ padded 2 (second / 60 % 60) ++ ":" ++
    padded 2 (second % 60)

/-- The moment to the millisecond, cut off, with the zone `Z`. -/
def stamp (m : Moment) : String :=
  m.dateTime ++ "." ++ padded 3 (m.fraction / 1000) ++ "Z"

/-- The moment to the microsecond with a numeric zone; the fraction is left out when it is
zero. -/
def isoText (m : Moment) : String :=
  m.dateTime ++ (if m.fraction = 0 then "" else "." ++ padded 6 m.fraction) ++ "+00:00"

/-- The moment that a number of seconds since the start of 1970 stands for. Its part below one
second is taken as a binary64 number of microseconds, of which a half goes to the even one. -/
def ofSeconds : Binary64 → Moment
  | .finite negative units =>
    let past := match (Binary64.finite false (units % Binary64.scale)).times 1000000 with
      | .finite _ units => roundHalfEven units Binary64.scale
      | _ => 0
    ⟨Binary64.signedUnits negative (units / Binary64.scale * 1000000 + past)⟩
  | _ => ⟨0⟩

/-- The number of seconds by which a log record keeps a moment. -/
def recordSeconds (m : Moment) : Binary64 :=
  (Binary64.ofRatio (m.micros < 0) m.micros.natAbs 1).divideBy 1000000

/-- The moment as a log record keeps it. -/
def recorded (m : Moment) : Moment := ofSeconds m.recordSeconds

/-- The number of seconds by which a file keeps a moment: whole seconds, and nanoseconds past
them, each times the binary64 number nearest to a billionth. -/
def fileSeconds (m : Moment) : Binary64 :=
  Binary64.add (Binary64.ofRatio (m.seconds < 0) m.seconds.natAbs 1)
    ((Binary64.ofDecimal false 1 (-9)).times (m.fraction * 1000))

/-- The moment as a file keeps it. -/
def filed (m : Moment) : Moment := ofSeconds m.fileSeconds

end Moment
end SpecDraft
