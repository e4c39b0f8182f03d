import HttpRouting.Calendar.Basic
import HttpRouting.Text.Blank
import HttpRouting.Text.Split

/-!
Reading dates in the form of mail headers: an optional day of the week, the date, the time with
optional seconds, a zone by its name or its distance, and comments in parentheses.
-/

set_option autoImplicit false
set_option relaxedAutoImplicit false

namespace HttpRouting.Calendar

/-- The value of a run of decimal digits. -/
def digitsValue (digits : List Char) : Nat :=
  digits.foldl (fun value c => 10 * value + (c.toNat - '0'.toNat)) 0

/-- Take at least one and at most a number of digits off. -/
def takeNumber? (least most : Nat) (text : List Char) : Option (Nat × Nat × List Char) :=
  let digits := (text.take most).takeWhile Char.isDigit
  if digits.length < least then none
  else some (digitsValue digits, digits.length, text.drop digits.length)

/-- The position of a name, in any case, at the start of a text. -/
def takeName? (names : List String) (text : List Char) : Option (Nat × List Char) :=
  (names.findIdx? fun name => Text.sameIgnoringCase name (String.ofList (text.take 3))).map
    fun index => (index, text.drop 3)

/-- Take blanks off; there must be one. -/
def takeSpace? (text : List Char) : Option (List Char) :=
  match text with
  | c :: _ => if Text.isBlank c then some (Text.trimStart text) else none
  | [] => none

/-- Take one known character off. -/
def takeMark? (mark : Char) : List Char → Option (List Char)
  | c :: rest => if c = mark then some rest else none
  | [] => none

/-- Years of two digits lie between 1950 and 2049, and those of three digits count from 1900. -/
def fullYear (length year : Nat) : Nat :=
  if length = 2 then (if year < 50 then year + 2000 else year + 1900)
  else if length = 3 then year + 1900
  else year

/-- The distance of a named zone in seconds; single letters other than J stand for none. -/
def namedZone? (name : List Char) : Option Int :=
  match (Text.lower (String.ofList name)) with
  | "gmt" => some 0
  | "ut" => some 0
  | "edt" => some (-4 * 3600)
  | "est" => some (-5 * 3600)
  | "cdt" => some (-5 * 3600)
  | "cst" => some (-6 * 3600)
  | "mdt" => some (-6 * 3600)
  | "mst" => some (-7 * 3600)
  | "pdt" => some (-7 * 3600)
  | "pst" => some (-8 * 3600)
  | _ =>
    match name with
    | [letter] => if letter = 'J' || letter = 'j' then none else some 0
    | _ => none

/-- Read a zone: a name of letters, or a sign with hours and minutes. -/
def takeZone? (text : List Char) : Option (Int × List Char) :=
  let name := text.takeWhile Char.isAlpha
  if !name.isEmpty then
    (namedZone? name).map fun offset => (offset, text.drop name.length)
  else
    match text with
    | sign :: a :: b :: c :: d :: rest =>
      let minutes := digitsValue [c, d]
      if (sign = '+' || sign = '-') && [a, b, c, d].all Char.isDigit && minutes < 60 then
        let offset : Int := digitsValue [a, b] * 3600 + minutes * 60
        some (if sign = '-' then -offset else offset, rest)
      else none
    | _ => none

/-- Whether a text consists of comments, each perhaps behind blanks.  Comments nest, and a
backslash takes the meaning of the character behind it away.  The depth counts the parentheses that
are open, and the flag tells that a comment is due because blanks stand before it. -/
def onlyComments : Nat → Bool → List Char → Bool
  | 0, due, [] => !due
  | _ + 1, _, [] => false
  | 0, _, c :: rest =>
    if c = '(' then onlyComments 1 false rest else Text.isBlank c && onlyComments 0 true rest
  | _ + 1, _, ['\\'] => false
  | depth + 1, _, '\\' :: _ :: rest => onlyComments (depth + 1) false rest
  | depth + 1, _, c :: rest =>
    if c = '(' then onlyComments (depth + 2) false rest
    else if c = ')' then onlyComments depth false rest
    else onlyComments (depth + 1) false rest

/-- A date and time as a mail header gives them. -/
structure MailDate where
  weekday : Option Nat
  date : CivilDate
  hour : Nat
  minute : Nat
  second : Nat
  offset : Int

/-- Take the day of the week with its comma off, if it is there. -/
def takeWeekday? (text : List Char) : Option (Option Nat × List Char) :=
  match takeName? weekdayNames text with
  | some (weekday, rest) => (takeMark? ',' rest).map fun rest => (some weekday, Text.trimStart rest)
  | none => some (none, text)

/-- Take the seconds off, if a colon announces them. -/
def takeSeconds? (text : List Char) : Option (Nat × List Char) :=
  match takeMark? ':' (Text.trimStart text) with
  | some rest => (takeNumber? 2 2 rest).map fun (second, _, rest) => (second, rest)
  | none => some (0, text)

/-- Read the parts of a date. -/
def readMailDate? (text : List Char) : Option MailDate := do
  let (weekday, rest) ← takeWeekday? (Text.trimStart text)
  let (day, _, rest) ← takeNumber? 1 2 (Text.trimStart rest)
  let rest ← takeSpace? rest
  let (month, rest) ← takeName? monthNames rest
  let rest ← takeSpace? rest
  let (year, length, rest) ← takeNumber? 2 rest.length rest
  let rest ← takeSpace? rest
  let (hour, _, rest) ← takeNumber? 2 2 rest
  let rest ← takeMark? ':' (Text.trimStart rest)
  let (minute, _, rest) ← takeNumber? 2 2 (Text.trimStart rest)
  let (second, rest) ← takeSeconds? rest
  let rest ← takeSpace? rest
  let (offset, rest) ← takeZone? rest
  if onlyComments 0 false rest then
    some ⟨weekday, ⟨fullYear length year, month + 1, day⟩, hour, minute, second, offset⟩
  else none

/-- The last year that a date may have. -/
def lastYear : Int := 262142

/-- The last second that a date may name. -/
def lastSecond : Int :=
  CivilDate.toDays ⟨lastYear, 12, 31⟩ * 86400 + 86399

/-- The seconds since the start of 1970; a leap second counts as the second before it. -/
def MailDate.toSeconds (m : MailDate) : Int :=
  m.date.toDays * 86400 + (m.hour * 3600 + m.minute * 60 + min m.second 59 : Nat) - m.offset

/-- Whether the parts of a date are in their ranges and fit together.  The zone may not move the
date past the last year. -/
def MailDate.isValid (m : MailDate) : Bool :=
  m.date.isValid && m.date.year ≤ lastYear && m.hour < 24 && m.minute < 60 && m.second ≤ 60
    && m.offset.natAbs < 86400 && m.toSeconds ≤ lastSecond
    && (match m.weekday with
      | some weekday => weekday = CivilDate.weekday m.date.toDays
      | none => true)

/-- The seconds since the start of 1970 that a date in mail form tells. -/
def mailDateSeconds? (text : String) : Option Int :=
  ((readMailDate? text.toList).filter MailDate.isValid).map MailDate.toSeconds

end HttpRouting.Calendar
