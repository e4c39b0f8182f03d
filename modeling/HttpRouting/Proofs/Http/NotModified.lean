import HttpRouting.Exchange
import HttpRouting.Proofs.Calendar.Reading
import HttpRouting.Proofs.Http.Values

/-!
Conditional requests.  The time of the last change goes out as the date of a header field; a client
sends that text back, and the server compares the date with the time of the last change that it knows
by then.  Dates are exact to the second, so what is compared is whole seconds.
-/

set_option autoImplicit false
set_option relaxedAutoImplicit false

namespace HttpRouting

section Plain

variable {c : Char}

theorem isPlain_of_isDigit (digit : c.isDigit = true) : IsPlain c :=
  isPlain_of_isTokenChar (by simp [isTokenChar, Char.isAlphanum, digit])

instance (c : Char) : Decidable (IsPlain c) :=
  inferInstanceAs (Decidable (_ ∧ _))

theorem isPlain_of_all {text : List Char} (plain : text.all (fun c => IsPlain c) = true) :
    ∀ c ∈ text, IsPlain c := fun c member =>
  of_decide_eq_true (List.all_eq_true.mp plain c member)

theorem isPlain_of_mem_nameAt {names : List String} {index : Nat}
    (plain : ∀ name ∈ names, name.toList.all (fun c => IsPlain c) = true) :
    ∀ c ∈ Calendar.nameAt names index, IsPlain c := by
  unfold Calendar.nameAt
  cases found : names[index]? with
  | none => exact nofun
  | some name => exact isPlain_of_all (plain name (List.mem_of_getElem? found))

/-- Dates are plain text. -/
theorem isPlain_of_mem_httpDate {t : Instant} (member : c ∈ (Calendar.httpDate t).toList) :
    IsPlain c := by
  have number {width n : Nat} : ∀ c ∈ Calendar.padded width n, IsPlain c := fun c digit =>
    isPlain_of_isDigit (Calendar.isDigit_of_mem_padded digit)
  have year (year : Int) : ∀ c ∈ Calendar.yearText year, IsPlain c := by
    unfold Calendar.yearText
    split
    · exact number
    · refine List.forall_mem_cons.mpr ⟨?_, number⟩
      split <;> decide
  have weekday {index : Nat} : ∀ c ∈ Calendar.nameAt Calendar.weekdayNames index, IsPlain c :=
    isPlain_of_mem_nameAt (by decide)
  have month {index : Nat} : ∀ c ∈ Calendar.nameAt Calendar.monthNames index, IsPlain c :=
    isPlain_of_mem_nameAt (by decide)
  have blank : IsPlain ' ' := by decide
  have colon : IsPlain ':' := by decide
  have comma : ∀ c ∈ ", ".toList, IsPlain c := isPlain_of_all (by decide)
  have zone : ∀ c ∈ " GMT".toList, IsPlain c := isPlain_of_all (by decide)
  revert c
  simp only [Calendar.httpDate, String.toList_ofList, List.forall_mem_append, List.forall_mem_cons,
    and_assoc]
  exact ⟨weekday, comma, number, blank, month, blank, year _, blank, number, colon, number, colon,
    number, zone⟩

end Plain

namespace Exchange

/-- Without a date to compare with, the date of the change is written to the response. -/
theorem checkNotModified_of_none {exchange : Exchange} {t : Instant}
    (unknown : (exchange.request.header? .ifModifiedSince).bind Calendar.mailDateSeconds? = none) :
    exchange.checkNotModified (some t) =
      (false, exchange.withResponse { exchange.response with
        headers := exchange.response.headers.insert .lastModified
          (.ofPlain (Calendar.httpDate t)) }) := by
  simp only [checkNotModified, unknown, Option.any_none, Bool.false_eq_true, if_false]

/-- With a date to compare with, the change is compared with it to the second. -/
theorem checkNotModified_of_some {exchange : Exchange} {u : Instant} {seconds : Int}
    (known : (exchange.request.header? .ifModifiedSince).bind Calendar.mailDateSeconds? =
      some seconds) :
    (exchange.checkNotModified (some u)).1 = decide (u.seconds ≤ seconds) ∧
      (exchange.checkNotModified (some u)).2.response.status =
        if u.seconds ≤ seconds then .notModified else exchange.response.status := by
  by_cases current : u.seconds ≤ seconds
  · simp [checkNotModified, known, current, withResponse, response]
  · simp [checkNotModified, known, current, withResponse, response]

/-- The round trip of a conditional request.  The first answer says that the copy is not current
and bears the date of the last change `t` as its only new field; that date is the text of a value.  Any
request that sends the text back is told that its copy is current, with status 304, exactly when
the last change `u` known by then is, in whole seconds, no later than `t`.  The seconds of an instant
leave its nanoseconds out, and those of a leap second count as the second before it. -/
theorem checkNotModified_round_trip {t : Instant} (proper : t.Proper) (from_zero : 0 ≤ t.date.year)
    (four_digits : t.date.year ≤ 9999) {first : Exchange}
    (without : first.request.headers.contains .ifModifiedSince = false) :
    ∃ value, HeaderValue.ofText? (Calendar.httpDate t) = some value ∧
      value.text? = some (Calendar.httpDate t) ∧
      first.checkNotModified (some t) =
        (false, first.withResponse { first.response with
          headers := first.response.headers.insert .lastModified value }) ∧
      ∀ (second : Exchange) (u : Instant),
        second.request.header? .ifModifiedSince = some (Calendar.httpDate t) →
        (second.checkNotModified (some u)).1 = decide (u.seconds ≤ t.seconds) ∧
          (second.checkNotModified (some u)).2.response.status =
            if u.seconds ≤ t.seconds then .notModified else second.response.status := by
  have plain : ∀ c ∈ (Calendar.httpDate t).toList, IsPlain c := fun c => isPlain_of_mem_httpDate
  have told : Calendar.mailDateSeconds? (Calendar.httpDate t) = some t.seconds :=
    Calendar.mailDateSeconds?_httpDate proper from_zero four_digits
  have unknown : (first.request.header? .ifModifiedSince).bind Calendar.mailDateSeconds? = none := by
    rw [Request.header?, Headers.text?_of_not_contains without, Option.bind_none]
  refine ⟨.ofPlain (Calendar.httpDate t), HeaderValue.ofText?_of_plain plain,
    HeaderValue.text?_ofPlain plain, checkNotModified_of_none unknown, fun second u sent => ?_⟩
  refine checkNotModified_of_some ?_
  rw [sent, Option.bind_some, told]

/-- A change within the leap second at the end of 2016 is known again half a second later. -/
theorem leap_second_round_trip :
    let leap : Instant := ⟨1483228799, 1500000000⟩
    let asking := fun headers => Exchange.ofRequest ⟨⟨[]⟩, .get, "/news", [], headers, []⟩
    leap.Proper ∧ 0 ≤ leap.date.year ∧ leap.date.year ≤ 9999 ∧
      Headers.empty.contains .ifModifiedSince = false ∧
      ∃ value, ((asking .empty).checkNotModified (some leap)).2.response.headers.values
          .lastModified = [value] ∧
        ((asking (Headers.empty.insert .ifModifiedSince value)).checkNotModified
          (some ⟨1483228799, 1999999999⟩)).1 = true ∧
        ((asking (Headers.empty.insert .ifModifiedSince value)).checkNotModified
          (some ⟨1483228800, 0⟩)).1 = false := by
  intro leap asking
  have proper : leap.Proper := by decide
  have from_zero : 0 ≤ leap.date.year := by decide
  have four_digits : leap.date.year ≤ 9999 := by decide
  have without : (asking .empty).request.headers.contains .ifModifiedSince = false := rfl
  obtain ⟨value, -, shown, answer, again⟩ :=
    checkNotModified_round_trip proper from_zero four_digits without
  have sent : (asking (Headers.empty.insert .ifModifiedSince value)).request.header?
      .ifModifiedSince = some (Calendar.httpDate leap) :=
    Headers.text?_insert_self.trans shown
  refine ⟨proper, from_zero, four_digits, without, value, ?_, ?_, ?_⟩
  · rw [answer]
    exact Headers.values_insert_self
  · rw [(again _ _ sent).1]
    decide
  · rw [(again _ _ sent).1]
    decide

end Exchange

end HttpRouting
