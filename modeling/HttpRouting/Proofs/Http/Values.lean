import HttpRouting.Http.Headers
import HttpRouting.Proofs.Text.Blank
import HttpRouting.Proofs.Text.Octets

/-!
Texts as values of header fields.  Plain text makes a value, and so does whatever consists of
characters that were read from a value.
-/

set_option autoImplicit false
set_option relaxedAutoImplicit false

namespace HttpRouting

/-- A character from the blank to the tilde. -/
def IsPlain (c : Char) : Prop :=
  0x20 ≤ c.toNat ∧ c.toNat ≤ 0x7E

theorem isPlain_of_isTokenChar {c : Char} (token : isTokenChar c = true) : IsPlain c := by
  simp only [isTokenChar, Bool.or_eq_true] at token
  rcases token with letter | mark
  · delta Char.isAlphanum Char.isAlpha Char.isUpper Char.isLower Char.isDigit at letter
    simp only [Bool.or_eq_true, Bool.and_eq_true, decide_eq_true_eq, ge_iff_le,
      UInt32.le_iff_toNat_le] at letter
    have code : c.toNat = c.val.toNat := rfl
    simp only [IsPlain, code]
    rcases letter with (⟨low, high⟩ | ⟨low, high⟩) | ⟨low, high⟩ <;> simp at low high <;> omega
  · have all_plain : tokenMarks.all (fun mark => 0x20 ≤ mark.toNat ∧ mark.toNat ≤ 0x7E) = true := by
      rfl
    have plain : 0x20 ≤ c.toNat ∧ c.toNat ≤ 0x7E := by
      simpa using List.all_eq_true.mp all_plain c (List.contains_iff_mem.mp mark)
    exact plain

/-- No character of a token is blank. -/
theorem not_isBlank_of_isTokenChar {c : Char} (token : isTokenChar c = true) :
    Text.isBlank c = false := by
  obtain ⟨low, high⟩ := isPlain_of_isTokenChar token
  have apart : c.toNat ≠ ' '.toNat := by
    intro space
    obtain rfl := Char.toNat_inj.mp space
    revert token
    decide
  have code : ' '.toNat = 0x20 := rfl
  exact Text.not_isBlank_of_visible (by omega) high

theorem trimmed_of_isToken {name : String} (token : isToken name = true) :
    Text.trimmed name = name := by
  rw [isToken, Bool.and_eq_true, List.all_eq_true] at token
  have shows (c : Char) (member : c ∈ name.toList) : Text.isBlank c = false :=
    not_isBlank_of_isTokenChar (token.2 c member)
  rw [Text.trimmed, Text.trim_eq_self shows, String.ofList_toList]

namespace HeaderValue

theorem isValueOctet_of_isTextOctet {octet : UInt8} (shows : isTextOctet octet = true) :
    isValueOctet octet = true := by
  simp only [isTextOctet, isValueOctet, Bool.or_eq_true, Bool.and_eq_true, decide_eq_true_eq] at *
  rcases shows with ⟨low, high⟩ | tab
  · exact .inl ⟨low, by rintro rfl; simp at high⟩
  · exact .inr tab

theorem ofText?_of_chars {text : String}
    (valid : ∀ c ∈ text.toList, ∀ octet ∈ String.utf8EncodeChar c, isValueOctet octet = true) :
    ofText? text = some (.ofPlain text) := by
  have octets : (Text.utf8 text).all isValueOctet = true := by
    rw [Text.utf8_eq, List.all_eq_true]
    intro octet written
    obtain ⟨c, member, written⟩ := List.mem_flatMap.mp written
    exact valid c member octet written
  rw [ofText?, ofBytes?, if_pos octets]
  rfl

theorem isTextOctet_of_isPlain {c : Char} (plain : IsPlain c) {octet : UInt8}
    (written : octet ∈ String.utf8EncodeChar c) : isTextOctet octet = true := by
  obtain ⟨low, high⟩ := plain
  rw [Text.utf8EncodeChar_of_lt (by omega), List.mem_singleton] at written
  subst written
  have octet : (UInt8.ofNat c.toNat).toNat = c.toNat := by
    rw [UInt8.toNat_ofNat']
    omega
  have deleted : (0x7F : UInt8).toNat = 0x7F := rfl
  simp only [isTextOctet, Bool.or_eq_true, Bool.and_eq_true, decide_eq_true_eq]
  left
  constructor
  · rwa [UInt8.le_iff_toNat_le, octet]
  · rw [UInt8.lt_iff_toNat_lt, octet, deleted]
    omega

theorem isValueOctet_of_isPlain {c : Char} (plain : IsPlain c) {octet : UInt8}
    (written : octet ∈ String.utf8EncodeChar c) : isValueOctet octet = true :=
  isValueOctet_of_isTextOctet (isTextOctet_of_isPlain plain written)

/-- The characters that a value shows may stand in a value again. -/
theorem isValueOctet_of_shown {value : HeaderValue} {text : String}
    (shown : value.text? = some text) {c : Char} (member : c ∈ text.toList) {octet : UInt8}
    (written : octet ∈ String.utf8EncodeChar c) : isValueOctet octet = true := by
  simp only [text?] at shown
  split at shown
  · next shows =>
    have octets := Text.utf8_of_ofUtf8? shown
    have held : octet ∈ value.bytes := by
      rw [← octets, Text.utf8_eq]
      exact List.mem_flatMap.mpr ⟨c, member, written⟩
    exact isValueOctet_of_isTextOctet (List.all_eq_true.mp shows octet held)
  · cases shown

theorem ofText?_of_plain {text : String} (plain : ∀ c ∈ text.toList, IsPlain c) :
    ofText? text = some (.ofPlain text) :=
  ofText?_of_chars fun c member _ => isValueOctet_of_isPlain (plain c member)

/-- A value of plain text shows it. -/
theorem text?_ofPlain {text : String} (plain : ∀ c ∈ text.toList, IsPlain c) :
    (ofPlain text).text? = some text := by
  have octets : (Text.utf8 text).all isTextOctet = true := by
    rw [Text.utf8_eq, List.all_eq_true]
    intro octet written
    obtain ⟨c, member, written⟩ := List.mem_flatMap.mp written
    exact isTextOctet_of_isPlain (plain c member) written
  rw [text?, ofPlain, if_pos octets, Text.ofUtf8?_utf8]

/-- A beginning of the text of a value makes a value. -/
theorem ofText?_of_isPrefix {value : HeaderValue} {text : String} (shown : value.text? = some text)
    {beginning : List Char} (begins : beginning <+: text.toList) :
    ofText? (String.ofList beginning) = some (.ofPlain (String.ofList beginning)) := by
  refine ofText?_of_chars fun c member octet written => ?_
  rw [String.toList_ofList] at member
  exact isValueOctet_of_shown shown (begins.subset member) written

theorem ofPlain_inj {text text' : String} : ofPlain text = ofPlain text' ↔ text = text' := by
  constructor
  · intro same
    have octets : Text.utf8 text = Text.utf8 text' := congrArg bytes same
    have read := Text.ofUtf8?_utf8 text
    rw [octets, Text.ofUtf8?_utf8] at read
    exact (Option.some.inj read).symm
  · rintro rfl
    rfl

end HeaderValue

namespace Headers

variable {headers : Headers} {name other : HeaderName} {value : HeaderValue}

theorem values_insert_self : (headers.insert name value).values name = [value] := by
  simp [values, insert]

theorem values_insert_of_ne (ne : other ≠ name) :
    (headers.insert name value).values other = headers.values other := by
  have kept (field : HeaderName × HeaderValue) :
      (if field.1 ≠ name then (if field.1 = other then some field.2 else none) else none) =
        if field.1 = other then some field.2 else none := by
    by_cases named : field.1 = other
    · rw [if_pos (named ▸ ne)]
    · rw [if_neg named, ite_self]
  simp only [values, insert, List.filterMap_append, List.filterMap_filter, List.filterMap_cons,
    if_neg ne.symm, List.filterMap_nil, List.append_nil, decide_eq_true_eq, kept]

theorem values_of_not_contains (absent : headers.contains name = false) :
    headers.values name = [] :=
  List.filterMap_eq_nil_iff.mpr fun field listed => if_neg fun same =>
    List.any_eq_false.mp absent field listed (decide_eq_true same)

theorem text?_of_not_contains (absent : headers.contains name = false) :
    headers.text? name = none := by
  rw [text?, values_of_not_contains absent]
  rfl

theorem text?_insert_self : (headers.insert name value).text? name = value.text? := by
  rw [text?, values_insert_self]
  rfl

end Headers

end HttpRouting
