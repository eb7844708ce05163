import SpecDraft.Number.Quantity

/-!
# Effort

Hours of work as a reader takes them in: one day up to eight hours, days of eight hours up to
forty, weeks of forty hours beyond. Hours are shown with at most six significant digits.
-/
set_option autoImplicit false

namespace SpecDraft.Effort

/-- A duration in whole days or weeks. -/
inductive Duration where
  | oneDay
  | days (count : Int)
  | weeks (count : Int)
  deriving DecidableEq, Repr

namespace Duration

/-- The text of a duration. -/
def text : Duration → String
  | oneDay => "1 day"
  | days count => toString count ++ " days"
  | weeks count => toString count ++ (if count = 1 then " week" else " weeks")

end Duration

/-- Hours and the duration that they make. -/
def layout (hours : String) (duration : Duration) : String :=
  hours ++ " hours (" ++ duration.text ++ ")"

/-- The least count of units of a size that covers some hours. -/
def covering (size hours : Nat) : Nat := (hours + (size - 1)) / size

/-- The duration of whole hours. -/
def durationOf (hours : Nat) : Duration :=
  if hours ≤ 8 then .oneDay
  else if hours ≤ 40 then .days (covering 8 hours)
  else .weeks (covering 40 hours)

/-- How a number of hours is shown. -/
def shown (hours : Binary64) : String := hours.general 6 false

/-- The text of whole hours. -/
def ofHours (hours : Nat) : String :=
  layout (shown (Binary64.ofRatio false hours 1)) (durationOf hours)

/-- The least whole number that is not below a binary64 number. -/
def ceiling (x : Binary64) : Outcome Int :=
  match x.ceiling?, x with
  | some n, _ => .ok n
  | none, .nan => .error (.argument "cannot convert float NaN to integer")
  | none, _ => .error (.overflow "cannot convert float infinity to integer")

/-- Whether a quantity is at most a whole number. -/
def atMost (bound : Nat) : Quantity → Bool
  | .whole n => n ≤ bound
  | .real x => x.le (Binary64.ofRatio false bound 1)

/-- A quantity divided by a positive number, rounded once. -/
def divided (n : Nat) : Quantity → Binary64
  | .whole k => Binary64.ofRatio (k < 0) k.natAbs n
  | .real x => x.divideBy n

/-- The text of hours of any kind. Quotients are rounded to binary64 before they are rounded
up. -/
def ofQuantity (hours : Quantity) : Outcome String := do
  let text := shown (← hours.toReal)
  if atMost 8 hours then return layout text .oneDay
  else if atMost 40 hours then return layout text (.days (← ceiling (divided 8 hours)))
  else return layout text (.weeks (← ceiling (divided 40 hours)))

end SpecDraft.Effort
