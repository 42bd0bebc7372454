import Groundwork.Decimal.Written

/-!
Points in universal time and their written form. Years follow the Gregorian calendar, whose leap
days repeat every 400 years; a year is counted here from the first of March, so that a leap day is
its last one.
-/

namespace Groundwork

/-- Microseconds since the beginning of 1970. -/
structure Timestamp where
  microseconds : Int
  deriving DecidableEq, Repr

namespace Timestamp

structure Date where
  year : Int
  month : Nat
  day : Nat
  deriving DecidableEq, Repr

def daysPerEra : Int := 146097

def daysBefore1970 : Int := 719468

def dateOf (days : Int) : Date :=
  let shifted := days + daysBefore1970
  let era := Int.fdiv shifted daysPerEra
  let dayOfEra := Int.fmod shifted daysPerEra
  let yearOfEra :=
    (dayOfEra - dayOfEra / 1460 + dayOfEra / 36524 - dayOfEra / 146096) / 365
  let dayOfYear := dayOfEra - (365 * yearOfEra + yearOfEra / 4 - yearOfEra / 100)
  let monthFromMarch := (5 * dayOfYear + 2) / 153
  let day := dayOfYear - (153 * monthFromMarch + 2) / 5 + 1
  let month := if monthFromMarch < 10 then monthFromMarch + 3 else monthFromMarch - 9
  let year := yearOfEra + era * 400 + (if month ≤ 2 then 1 else 0)
  ⟨year, month.toNat, day.toNat⟩

def padded (width n : Nat) : String :=
  String.ofList (Decimal.padLeft width '0' (Nat.toDigits 10 n))

/-- Date, time and a distance of zero from universal time; a whole second has no fraction. -/
def text (t : Timestamp) : String :=
  let micros := (Int.fmod t.microseconds 1000000).toNat
  let allSeconds := Int.fdiv t.microseconds 1000000
  let seconds := (Int.fmod allSeconds 86400).toNat
  let date := dateOf (Int.fdiv allSeconds 86400)
  let fraction := if micros = 0 then "" else "." ++ padded 6 micros
  padded 4 date.year.toNat ++ "-" ++ padded 2 date.month ++ "-" ++ padded 2 date.day ++ "T" ++
    padded 2 (seconds / 3600) ++ ":" ++ padded 2 (seconds / 60 % 60) ++ ":" ++
    padded 2 (seconds % 60) ++ fraction ++ "+00:00"

end Timestamp

end Groundwork
