import HttpRouting.Text.Percent

/-!
The UTF-8 octets of a text.  A text is read back from its octets, and an octet below 128 is the only one
of its character, so such characters are found among the octets where they stand in the text.
-/

set_option autoImplicit false
set_option relaxedAutoImplicit false

namespace HttpRouting.Text

theorem utf8_ofList (text : List Char) :
    utf8 (String.ofList text) = text.flatMap String.utf8EncodeChar := by
  simp [utf8, List.utf8Encode, List.data_toByteArray]

theorem utf8_eq (text : String) : utf8 text = text.toList.flatMap String.utf8EncodeChar := by
  rw [← utf8_ofList, String.ofList_toList]

theorem utf8_of_ofUtf8? {bytes : Bytes} {text : String} (read : ofUtf8? bytes = some text) :
    utf8 text = bytes := by
  simp only [ofUtf8?, String.fromUTF8?] at read
  split at read
  · cases read
    rfl
  · cases read

theorem ofUtf8?_utf8 (text : String) : ofUtf8? (utf8 text) = some text := by
  have valid : text.toUTF8.IsValidUTF8 := text.isValidUTF8
  show String.fromUTF8? ⟨text.toUTF8.data.toList.toArray⟩ = some text
  rw [Array.toArray_toList]
  exact dif_pos valid

section Ascii

variable {c : Char} {octet : UInt8}

theorem utf8EncodeChar_of_lt (ascii : c.toNat < 0x80) :
    String.utf8EncodeChar c = [UInt8.ofNat c.toNat] := by
  have code : c.val.toNat = c.toNat := rfl
  rw [String.utf8EncodeChar, code, if_pos (by omega)]

/-- Every octet of a longer character is 128 or more. -/
theorem toNat_of_mem_utf8EncodeChar (member : octet ∈ String.utf8EncodeChar c)
    (small : octet.toNat < 0x80) : c.toNat = octet.toNat := by
  have code : c.val.toNat = c.toNat := rfl
  simp only [String.utf8EncodeChar, code] at member
  split at member
  · next ascii =>
    rw [List.mem_singleton] at member
    rw [member, UInt8.toNat_ofNat']
    omega
  · exfalso
    have lead {value : Nat} (high : 0x80 ≤ value) (within : value < 0x100) :
        octet ≠ UInt8.ofNat value := by
      rintro rfl
      rw [UInt8.toNat_ofNat'] at small
      omega
    split at member
    · simp only [List.mem_cons, List.not_mem_nil, or_false] at member
      rcases member with same | same <;> exact lead (by omega) (by omega) same
    · split at member
      · simp only [List.mem_cons, List.not_mem_nil, or_false] at member
        rcases member with same | same | same <;> exact lead (by omega) (by omega) same
      · simp only [List.mem_cons, List.not_mem_nil, or_false] at member
        rcases member with same | same | same | same <;> exact lead (by omega) (by omega) same

theorem not_mem_utf8EncodeChar (mark : Char) (ascii : mark.toNat < 0x80) (other : c ≠ mark) :
    UInt8.ofNat mark.toNat ∉ String.utf8EncodeChar c := by
  intro member
  have octet : (UInt8.ofNat mark.toNat).toNat = mark.toNat := by
    rw [UInt8.toNat_ofNat']
    omega
  have code : c.toNat = (UInt8.ofNat mark.toNat).toNat :=
    toNat_of_mem_utf8EncodeChar member (by omega)
  exact other (Char.toNat_inj.mp (code.trans octet))

end Ascii

/-- An octet below 128 at the beginning is that of the first character. -/
theorem exists_cons_of_utf8 {text : List Char} {octet : UInt8} {bytes : Bytes}
    (octets : text.flatMap String.utf8EncodeChar = octet :: bytes) (small : octet.toNat < 0x80) :
    ∃ c rest, text = c :: rest ∧ c.toNat = octet.toNat ∧
      rest.flatMap String.utf8EncodeChar = bytes := by
  cases text with
  | nil => cases octets
  | cons c rest =>
    have first : octet ∈ String.utf8EncodeChar c := by
      rw [List.flatMap_cons] at octets
      cases encoded : String.utf8EncodeChar c with
      | nil => exact absurd encoded String.utf8EncodeChar_ne_nil
      | cons other others =>
        rw [encoded, List.cons_append] at octets
        rw [(List.cons.inj octets).1]
        exact List.mem_cons_self
    have code := toNat_of_mem_utf8EncodeChar first small
    rw [List.flatMap_cons, utf8EncodeChar_of_lt (by omega)] at octets
    exact ⟨c, rest, rfl, code, (List.cons.inj octets).2⟩

end HttpRouting.Text
