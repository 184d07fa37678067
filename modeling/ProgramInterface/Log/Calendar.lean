import ProgramInterface.Text.Basic

/-!
# Calendar

Days and seconds counted from the first day of 1970, as dates and times of the Gregorian calendar.
-/

namespace ProgramInterface

namespace Calendar

/-- A day of the calendar. -/
structure Date where
  year : Int
  month : Nat
  day : Nat
  deriving DecidableEq

/-- The number of days in 400 years. -/
def daysInEra : Int := 146097

/-- The number of days from the first of March of the year 0 to the first of January of 1970. -/
def daysToStart : Int := 719468

/-- The date of a day. Years are taken to begin in March, so that a leap day is the last of its
year. -/
def dateOf (day : Int) : Date :=
  let shifted := day + daysToStart
  let era := shifted / daysInEra
  let ofEra := (shifted % daysInEra).toNat
  let yearOfEra := (ofEra - ofEra / 1460 + ofEra / 36524 - ofEra / 146096) / 365
  let ofYear := ofEra - (365 * yearOfEra + yearOfEra / 4 - yearOfEra / 100)
  let monthFromMarch := (5 * ofYear + 2) / 153
  let month := if monthFromMarch < 10 then monthFromMarch + 3 else monthFromMarch - 9
  ⟨yearOfEra + era * 400 + (if month ≤ 2 then 1 else 0), month,
    ofYear - (153 * monthFromMarch + 2) / 5 + 1⟩

/-- The number of seconds in a day. -/
def secondsInDay : Int := 86400

/-- The year of a point in time. -/
def yearOf (seconds : Int) : Int :=
  (dateOf (seconds / secondsInDay)).year

/-- The first year that can be shown: years are counted from 1900 in 32 bits. -/
def firstYear : Int := 1900 - Nat.pow 2 31

/-- The first year that cannot be shown any more: years are given in 32 bits. -/
def endYear : Int := Nat.pow 2 31

/-- Whether a point in time can be shown. -/
def IsShown (seconds : Int) : Prop :=
  firstYear ≤ yearOf seconds ∧ yearOf seconds < endYear

instance (seconds : Int) : Decidable (IsShown seconds) :=
  inferInstanceAs (Decidable (_ ∧ _))

/-- A number with at least two digits. -/
def twoDigits (n : Nat) : Text :=
  Text.padLeft 2 '0' (Text.ofNat n)

/-- A point in time as text, with a separator between the date and the time of day; a year too far
from ours has none. -/
def stamp? (separator : Text) (seconds : Int) : Option Text :=
  let date := dateOf (seconds / secondsInDay)
  let clock := (seconds % secondsInDay).toNat
  if IsShown seconds then
    some <|
      Text.joinWith "-" [Text.ofInt date.year, twoDigits date.month, twoDigits date.day] ++
        separator ++
        Text.joinWith ":" [twoDigits (clock / 3600), twoDigits (clock / 60 % 60),
          twoDigits (clock % 60)]
  else none

end Calendar

end ProgramInterface
