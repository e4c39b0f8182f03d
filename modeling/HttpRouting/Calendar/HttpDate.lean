import HttpRouting.Calendar.Basic

/-!
Dates as header fields show them, such as `Sun, 06 Nov 1994 08:49:37 GMT`.
-/

set_option autoImplicit false
set_option relaxedAutoImplicit false

namespace HttpRouting.Calendar

/-- A number in decimal, filled up with zeros to a width. -/
def padded (width n : Nat) : List Char :=
  let digits := Nat.toDigits 10 n
  List.replicate (width - digits.length) '0' ++ digits

/-- A year in four digits; outside of these it bears its sign. -/
def yearText (year : Int) : List Char :=
  if 0 ≤ year && year ≤ 9999 then padded 4 year.toNat
  else (if year < 0 then '-' else '+') :: padded 4 year.natAbs

/-- The date and time of an instant in universal time. -/
def httpDate (instant : Instant) : String :=
  let days := instant.seconds / 86400
  let time := (instant.seconds % 86400).toNat
  let date := CivilDate.ofDays days
  let second := time % 60 + instant.nanos / 1000000000
  String.ofList
    (((weekdayNames[CivilDate.weekday days]?).getD "").toList ++ ", ".toList
      ++ padded 2 date.day ++ ' ' :: ((monthNames[date.month - 1]?).getD "").toList
      ++ ' ' :: yearText date.year
      ++ ' ' :: padded 2 (time / 3600) ++ ':' :: padded 2 (time / 60 % 60)
      ++ ':' :: padded 2 second ++ " GMT".toList)

end HttpRouting.Calendar
