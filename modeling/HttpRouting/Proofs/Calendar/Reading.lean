import HttpRouting.Calendar.HttpDate
import HttpRouting.Calendar.MailDate
import HttpRouting.Proofs.Calendar.Days
import HttpRouting.Proofs.Text.Blank
import Mathlib.Data.List.TakeWhile

/-!
Dates of header fields are read back as dates of mail.  Each part of a written date stands in front of
a character that cannot belong to it, so that reading takes the parts off in turn; and the date and
time that it tells are those of the instant, to the second.
-/

set_option autoImplicit false
set_option relaxedAutoImplicit false

namespace HttpRouting

namespace Instant

/-- The nanoseconds of an instant reach beyond a second in leap seconds only, and a leap second is
counted with the last second of a minute. -/
def Proper (instant : Instant) : Prop :=
  instant.nanos < 1000000000 ∨ instant.nanos < 2000000000 ∧ instant.seconds % 60 = 59

instance (instant : Instant) : Decidable instant.Proper :=
  inferInstanceAs (Decidable (_ ∨ _))

/-- The day of an instant in universal time. -/
def date (instant : Instant) : CivilDate :=
  CivilDate.ofDays (instant.seconds / 86400)

/-- The second of an instant within its day. -/
def timeOfDay (instant : Instant) : Nat :=
  (instant.seconds % 86400).toNat

/-- The second of an instant within its minute as clocks show it, sixty in a leap second. -/
def clockSecond (instant : Instant) : Nat :=
  instant.timeOfDay % 60 + instant.nanos / 1000000000

end Instant

namespace Calendar

section Numbers

variable {width n least most : Nat} {mark : Char} {digits rest : List Char}

theorem takeNumber?_digits (shown : ∀ c ∈ digits, c.isDigit = true) (enough : least ≤ digits.length)
    (fits : digits.length ≤ most) (other : mark.isDigit = false) :
    takeNumber? least most (digits ++ mark :: rest) =
      some (digitsValue digits, digits.length, mark :: rest) := by
  have read : ((digits ++ mark :: rest).take most).takeWhile Char.isDigit = digits := by
    rw [List.take_append, List.take_of_length_le fits, List.takeWhile_append_of_pos shown]
    cases most - digits.length with
    | zero => simp
    | succ more => simp [other]
  simp only [takeNumber?, read, List.drop_left]
  rw [if_neg (by omega)]

theorem isDigit_of_mem_padded {c : Char} (member : c ∈ padded width n) : c.isDigit = true := by
  rcases List.mem_append.mp member with zero | digit
  · rw [(List.mem_replicate.mp zero).2]
    decide
  · exact Nat.isDigit_of_mem_toDigits (by decide) (by decide) digit

theorem length_padded (positive : 0 < width) (within : n < 10 ^ width) :
    (padded width n).length = width := by
  have short := (Nat.length_toDigits_le_iff (by decide) positive).mpr within
  simp only [padded, List.length_append, List.length_replicate]
  omega

theorem digitsValue_padded (width n : Nat) : digitsValue (padded width n) = n := by
  have zeros (count : Nat) (text : List Char) :
      digitsValue (List.replicate count '0' ++ text) = digitsValue text := by
    induction count with
    | zero => rfl
    | succ count ih => exact ih
  rw [padded, zeros]
  exact Nat.ofDigitChars_toDigits (by decide) (by decide)

theorem takeNumber?_padded (positive : 0 < width) (within : n < 10 ^ width) (enough : least ≤ width)
    (fits : width ≤ most) (other : mark.isDigit = false) :
    takeNumber? least most (padded width n ++ mark :: rest) = some (n, width, mark :: rest) := by
  have length := length_padded positive within
  rw [takeNumber?_digits (fun c => isDigit_of_mem_padded) (by omega) (by omega) other,
    digitsValue_padded, length]

end Numbers

section Marks

variable {text rest : List Char} {width n : Nat}

/-- A text begins with a character that is not blank. -/
def Shows (text : List Char) : Prop :=
  ∃ c rest, text = c :: rest ∧ Text.isBlank c = false

theorem Shows.trimStart (shows : Shows text) : Text.trimStart text = text := by
  obtain ⟨c, rest, rfl, shown⟩ := shows
  exact List.dropWhile_cons_of_neg (by simp [shown])

theorem Shows.takeSpace? (shows : Shows text) : takeSpace? (' ' :: text) = some text := by
  have dropped : Text.trimStart (' ' :: text) = Text.trimStart text :=
    List.dropWhile_cons_of_pos (by decide)
  rw [Calendar.takeSpace?, if_pos (by decide), dropped, shows.trimStart]

theorem Shows.append (shows : Shows text) (rest : List Char) : Shows (text ++ rest) := by
  obtain ⟨c, behind, rfl, shown⟩ := shows
  exact ⟨c, behind ++ rest, rfl, shown⟩

theorem not_isBlank_of_isDigit {c : Char} (digit : c.isDigit = true) : Text.isBlank c = false := by
  delta Char.isDigit at digit
  simp only [Bool.and_eq_true, decide_eq_true_eq, ge_iff_le, UInt32.le_iff_toNat_le] at digit
  have code : c.toNat = c.val.toNat := rfl
  have low : 48 ≤ c.toNat := digit.1
  have high : c.toNat ≤ 57 := digit.2
  exact Text.not_isBlank_of_visible (by omega) (by omega)

theorem shows_padded (positive : 0 < width) (within : n < 10 ^ width) : Shows (padded width n) := by
  have length := length_padded positive within
  cases written : padded width n with
  | nil =>
    rw [written] at length
    exact absurd length.symm (by simpa using positive.ne')
  | cons c rest =>
    have member : c ∈ padded width n := written ▸ List.mem_cons_self
    exact ⟨c, rest, rfl, not_isBlank_of_isDigit (isDigit_of_mem_padded member)⟩

end Marks

section Names

/-- The name at a place of a list. -/
def nameAt (names : List String) (index : Nat) : List Char :=
  ((names[index]?).getD "").toList

variable {names : List String} {index : Nat}

theorem takeName?_append {name : List Char} (three : name.length = 3)
    (found : names.findIdx? (fun n => Text.sameIgnoringCase n (String.ofList name)) = some index)
    (rest : List Char) : takeName? names (name ++ rest) = some (index, rest) := by
  have front : (name ++ rest).take 3 = name := List.take_left' three
  have behind : (name ++ rest).drop 3 = rest := List.drop_left' three
  rw [takeName?, front, behind, found]
  rfl

theorem takeName?_weekday (within : index < 7) (rest : List Char) :
    takeName? weekdayNames (nameAt weekdayNames index ++ rest) = some (index, rest) := by
  have all : ∀ index < 7, (nameAt weekdayNames index).length = 3 ∧
      weekdayNames.findIdx? (fun n =>
        Text.sameIgnoringCase n (String.ofList (nameAt weekdayNames index))) = some index := by
    decide
  exact takeName?_append (all index within).1 (all index within).2 rest

theorem takeName?_month (within : index < 12) (rest : List Char) :
    takeName? monthNames (nameAt monthNames index ++ rest) = some (index, rest) := by
  have all : ∀ index < 12, (nameAt monthNames index).length = 3 ∧
      monthNames.findIdx? (fun n =>
        Text.sameIgnoringCase n (String.ofList (nameAt monthNames index))) = some index := by
    decide
  exact takeName?_append (all index within).1 (all index within).2 rest

theorem shows_nameAt
    (begun : ∀ name ∈ names, (name.toList.head?.any fun c => !Text.isBlank c) = true)
    (within : index < names.length) : Shows (nameAt names index) := by
  obtain ⟨c, first, shown⟩ := (Option.any_eq_true _ _).mp (begun _ (List.getElem_mem within))
  rw [Bool.not_eq_true'] at shown
  obtain ⟨rest, begins⟩ := List.head?_eq_some_iff.mp first
  have named : nameAt names index = names[index].toList := by
    simp [nameAt, List.getElem?_eq_getElem within]
  exact ⟨c, rest, named.trans begins, shown⟩

theorem shows_weekday (within : index < 7) : Shows (nameAt weekdayNames index) :=
  shows_nameAt (by decide) within

theorem shows_month (within : index < 12) : Shows (nameAt monthNames index) :=
  shows_nameAt (by decide) within

end Names

section Written

variable {weekday day month year hour minute second : Nat}

/-- The text of a date and time in universal time. -/
def written (weekday day month year hour minute second : Nat) : List Char :=
  nameAt weekdayNames weekday ++ ',' :: ' ' :: (padded 2 day ++ ' ' :: (nameAt monthNames month ++
    ' ' :: (padded 4 year ++ ' ' :: (padded 2 hour ++ ':' :: (padded 2 minute ++
      ':' :: (padded 2 second ++ " GMT".toList))))))

theorem takeWeekday?_name (within : weekday < 7) {rest : List Char} (shows : Shows rest) :
    takeWeekday? (nameAt weekdayNames weekday ++ ',' :: ' ' :: rest) = some (some weekday, rest) := by
  have dropped : Text.trimStart (' ' :: rest) = Text.trimStart rest :=
    List.dropWhile_cons_of_pos (by decide)
  simp only [takeWeekday?, takeName?_weekday within, takeMark?, if_true, Option.map_some, dropped,
    shows.trimStart]

theorem takeSeconds?_padded (within : second < 100) (mark : Char) (rest : List Char)
    (other : mark.isDigit = false) :
    takeSeconds? (':' :: (padded 2 second ++ mark :: rest)) = some (second, mark :: rest) := by
  have colon : Shows (':' :: (padded 2 second ++ mark :: rest)) := ⟨_, _, rfl, by decide⟩
  rw [takeSeconds?, colon.trimStart]
  simp only [takeMark?, if_true]
  rw [takeNumber?_padded (by decide) within le_rfl le_rfl other]
  rfl

theorem shows_number {width n : Nat} (positive : 0 < width) (within : n < 10 ^ width)
    (rest : List Char) : Shows (padded width n ++ rest) :=
  (shows_padded positive within).append rest

theorem takeMark?_colon (rest : List Char) :
    takeMark? ':' (Text.trimStart (':' :: rest)) = some rest := by
  have shows : Shows (':' :: rest) := ⟨':', rest, rfl, by decide⟩
  rw [shows.trimStart, takeMark?, if_pos rfl]

theorem takeNumber?_day (within : day < 100) (rest : List Char) :
    takeNumber? 1 2 (Text.trimStart (padded 2 day ++ ' ' :: rest)) = some (day, 2, ' ' :: rest) := by
  rw [(shows_number (by decide) within _).trimStart]
  exact takeNumber?_padded (by decide) within (by decide) le_rfl (by decide)

theorem takeNumber?_year (within : year < 10000) (rest : List Char) :
    takeNumber? 2 (padded 4 year ++ ' ' :: rest).length (padded 4 year ++ ' ' :: rest) =
      some (year, 4, ' ' :: rest) := by
  have enough : 4 ≤ (padded 4 year ++ ' ' :: rest).length := by
    rw [List.length_append, length_padded (by decide) within]
    omega
  exact takeNumber?_padded (by decide) within (by decide) enough (by decide)

theorem takeNumber?_time {n : Nat} (within : n < 100) (rest : List Char) :
    takeNumber? 2 2 (padded 2 n ++ ':' :: rest) = some (n, 2, ':' :: rest) :=
  takeNumber?_padded (by decide) within le_rfl le_rfl (by decide)

/-- Every part of a written date is read back. -/
theorem readMailDate?_written (weekday_within : weekday < 7) (day_within : day < 100)
    (month_within : month < 12) (year_within : year < 10000) (hour_within : hour < 100)
    (minute_within : minute < 100) (second_within : second < 100) :
    readMailDate? (written weekday day month year hour minute second) =
      some ⟨some weekday, ⟨year, month + 1, day⟩, hour, minute, second, 0⟩ := by
  have ending : " GMT".toList = ' ' :: "GMT".toList := rfl
  have zone : takeZone? "GMT".toList = some (0, []) := by decide
  have day_behind (rest : List Char) : Shows (padded 2 day ++ rest) :=
    shows_number (by decide) day_within rest
  have month_behind (rest : List Char) : Shows (nameAt monthNames month ++ rest) :=
    (shows_month month_within).append rest
  have year_behind (rest : List Char) : Shows (padded 4 year ++ rest) :=
    shows_number (by decide) year_within rest
  have hour_behind (rest : List Char) : Shows (padded 2 hour ++ rest) :=
    shows_number (by decide) hour_within rest
  have zone_behind : Shows "GMT".toList := ⟨'G', ['M', 'T'], rfl, by decide⟩
  have minute_read (rest : List Char) :
      takeNumber? 2 2 (Text.trimStart (padded 2 minute ++ ':' :: rest)) =
        some (minute, 2, ':' :: rest) := by
    rw [(shows_number (by decide) minute_within _).trimStart, takeNumber?_time minute_within]
  rw [readMailDate?, written, ending, ((shows_weekday weekday_within).append _).trimStart]
  -- One step for each part that is taken off, in the order of the text.
  refine Option.bind_eq_some_iff.mpr ⟨_, takeWeekday?_name weekday_within (day_behind _), ?_⟩
  refine Option.bind_eq_some_iff.mpr ⟨_, takeNumber?_day day_within _, ?_⟩
  refine Option.bind_eq_some_iff.mpr ⟨_, (month_behind _).takeSpace?, ?_⟩
  refine Option.bind_eq_some_iff.mpr ⟨_, takeName?_month month_within _, ?_⟩
  refine Option.bind_eq_some_iff.mpr ⟨_, (year_behind _).takeSpace?, ?_⟩
  refine Option.bind_eq_some_iff.mpr ⟨_, takeNumber?_year year_within _, ?_⟩
  refine Option.bind_eq_some_iff.mpr ⟨_, (hour_behind _).takeSpace?, ?_⟩
  refine Option.bind_eq_some_iff.mpr ⟨_, takeNumber?_time hour_within _, ?_⟩
  refine Option.bind_eq_some_iff.mpr ⟨_, takeMark?_colon _, ?_⟩
  refine Option.bind_eq_some_iff.mpr ⟨_, minute_read _, ?_⟩
  refine Option.bind_eq_some_iff.mpr ⟨_, takeSeconds?_padded second_within _ _ (by decide), ?_⟩
  refine Option.bind_eq_some_iff.mpr ⟨_, zone_behind.takeSpace?, ?_⟩
  exact Option.bind_eq_some_iff.mpr ⟨_, zone, rfl⟩

end Written

section Shown

variable {t : Instant}

theorem clockSecond_of_proper (proper : t.Proper) :
    t.clockSecond ≤ 60 ∧ min t.clockSecond 59 = t.timeOfDay % 60 := by
  have minute : t.timeOfDay % 60 = (t.seconds % 60).toNat := by
    unfold Instant.timeOfDay
    omega
  unfold Instant.clockSecond
  rcases proper with ordinary | ⟨within, last⟩
  · have none : t.nanos / 1000000000 = 0 := by omega
    omega
  · omega

theorem httpDate_eq_written (from_zero : 0 ≤ t.date.year) (four_digits : t.date.year ≤ 9999) :
    httpDate t = String.ofList
      (written (CivilDate.weekday (t.seconds / 86400)) t.date.day (t.date.month - 1)
        t.date.year.toNat (t.timeOfDay / 3600) (t.timeOfDay / 60 % 60) t.clockSecond) := by
  have year : yearText t.date.year = padded 4 t.date.year.toNat := by
    rw [yearText, if_pos (by simp [from_zero, four_digits])]
  have comma : ", ".toList = [',', ' '] := rfl
  unfold Instant.date at *
  simp only [httpDate, written, nameAt, year, comma, List.append_assoc, List.cons_append,
    List.nil_append, Instant.timeOfDay, Instant.clockSecond]

/-- The parts that the date of an instant shows. -/
def shownDate (t : Instant) : MailDate :=
  ⟨some (CivilDate.weekday (t.seconds / 86400)), t.date, t.timeOfDay / 3600, t.timeOfDay / 60 % 60,
    t.clockSecond, 0⟩

theorem timeOfDay_eq (t : Instant) : (t.timeOfDay : Int) = t.seconds % 86400 := by
  unfold Instant.timeOfDay
  omega

theorem toSeconds_shownDate (proper : t.Proper) : (shownDate t).toSeconds = t.seconds := by
  have days : t.date.toDays = t.seconds / 86400 := CivilDate.toDays_ofDays _
  have second := (clockSecond_of_proper proper).2
  have time : t.timeOfDay / 3600 * 3600 + t.timeOfDay / 60 % 60 * 60 + t.timeOfDay % 60 =
      t.timeOfDay := by omega
  have within := timeOfDay_eq t
  simp only [MailDate.toSeconds, shownDate]
  rw [second, time, days]
  omega

theorem isValid_shownDate (proper : t.Proper) (four_digits : t.date.year ≤ 9999) :
    (shownDate t).isValid = true := by
  have date : t.date.isValid = true := CivilDate.isValid_ofDays _
  have days : t.date.toDays = t.seconds / 86400 := CivilDate.toDays_ofDays _
  have second := (clockSecond_of_proper proper).1
  have within := timeOfDay_eq t
  have early : t.seconds / 86400 + 719468 < (9999 / 400 + 1) * 146097 :=
    CivilDate.lt_of_year_ofDays_le four_digits
  have last : lastSecond = 8210266876799 := by decide +kernel
  have counted : (shownDate t).toSeconds ≤ lastSecond := by
    rw [toSeconds_shownDate proper, last]
    omega
  have year : t.date.year ≤ lastYear := four_digits.trans (by decide)
  have hour : t.timeOfDay / 3600 < 24 := by omega
  have minute : t.timeOfDay / 60 % 60 < 60 := Nat.mod_lt _ (by decide)
  simp only [MailDate.isValid, counted]
  simp [shownDate, date, year, days, hour, minute, second]

/-- The parts that the date of an instant shows are read back. -/
theorem readMailDate?_httpDate (proper : t.Proper) (from_zero : 0 ≤ t.date.year)
    (four_digits : t.date.year ≤ 9999) :
    readMailDate? (httpDate t).toList = some (shownDate t) := by
  have valid : t.date.isValid = true := CivilDate.isValid_ofDays _
  obtain ⟨month_from, month_to, day_from, day_to⟩ := CivilDate.isValid_iff.mp valid
  have day := CivilDate.monthLength_le t.date.year t.date.month
  have second := (clockSecond_of_proper proper).1
  have within := timeOfDay_eq t
  have weekday : CivilDate.weekday (t.seconds / 86400) < 7 := by
    unfold CivilDate.weekday
    omega
  have month : t.date.month - 1 + 1 = t.date.month := Nat.sub_add_cancel month_from
  have year : (t.date.year.toNat : Int) = t.date.year := Int.toNat_of_nonneg from_zero
  rw [httpDate_eq_written from_zero four_digits, String.toList_ofList,
    readMailDate?_written weekday (by omega) (by omega) (by omega) (by omega) (by omega) (by omega),
    month, year]
  rfl

/-- The date of an instant tells its whole seconds. -/
theorem mailDateSeconds?_httpDate (proper : t.Proper) (from_zero : 0 ≤ t.date.year)
    (four_digits : t.date.year ≤ 9999) : mailDateSeconds? (httpDate t) = some t.seconds := by
  rw [mailDateSeconds?, readMailDate?_httpDate proper from_zero four_digits,
    Option.filter_some_pos (isValid_shownDate proper four_digits), Option.map_some,
    toSeconds_shownDate proper]

end Shown

end Calendar

end HttpRouting
