import HttpRouting.Proofs.Text.Octets
import Mathlib.Data.List.Forall2

/-!
Percent-decoding takes back percent-encoding: whichever characters of a text are escaped, and in
whichever case the digits are written, the text is read again, as long as the percent signs that it
has itself are escaped.
-/

set_option autoImplicit false
set_option relaxedAutoImplicit false

namespace HttpRouting.Text

def smallDigits : List Char :=
  ['0', '1', '2', '3', '4', '5', '6', '7', '8', '9', 'a', 'b', 'c', 'd', 'e', 'f']

def capitalDigits : List Char :=
  ['0', '1', '2', '3', '4', '5', '6', '7', '8', '9', 'A', 'B', 'C', 'D', 'E', 'F']

/-- A character writes a value below sixteen, in either case. -/
def WritesDigit (digit : Char) (value : Nat) : Prop :=
  smallDigits[value]? = some digit ∨ capitalDigits[value]? = some digit

/-- The ways to escape an octet. -/
inductive EscapeOf : UInt8 → List Char → Prop
  | mk {octet : UInt8} {high low : Char} : WritesDigit high (octet.toNat / 16) →
      WritesDigit low (octet.toNat % 16) → EscapeOf octet ['%', high, low]

/-- The ways to write a text with some of its characters escaped, every octet of them.  The characters
that are kept as they are satisfy a condition. -/
inductive Escaped (kept : Char → Prop) : List Char → List Char → Prop
  | nil : Escaped kept [] []
  | keep {c : Char} {text written : List Char} :
      kept c → Escaped kept text written → Escaped kept (c :: text) (c :: written)
  | escape {c : Char} {text written : List Char} {escapes : List (List Char)} :
      List.Forall₂ EscapeOf (String.utf8EncodeChar c) escapes → Escaped kept text written →
        Escaped kept (c :: text) (escapes.flatten ++ written)

section Digits

variable {octet value high low : UInt8} {digit : Char}

theorem hexValue?_cases (read : hexValue? octet = some value) :
    (48 ≤ octet.toNat ∧ octet.toNat ≤ 57 ∧ octet.toNat = value.toNat + 48) ∨
      (65 ≤ octet.toNat ∧ octet.toNat ≤ 70 ∧ octet.toNat = value.toNat + 55) ∨
      (97 ≤ octet.toNat ∧ octet.toNat ≤ 102 ∧ octet.toNat = value.toNat + 87) := by
  have small : octet.toNat < 256 := octet.toNat_lt
  simp only [hexValue?, Bool.and_eq_true, decide_eq_true_eq, UInt8.le_iff_toNat_le,
    UInt8.reduceToNat] at read
  split at read
  · next within =>
    cases read
    simp only [UInt8.toNat_sub, UInt8.reduceToNat]
    omega
  · split at read
    · next within =>
      cases read
      simp only [UInt8.toNat_sub, UInt8.toNat_add, UInt8.reduceToNat]
      omega
    · split at read
      · next within =>
        cases read
        simp only [UInt8.toNat_sub, UInt8.toNat_add, UInt8.reduceToNat]
        omega
      · cases read

theorem hexPair?_eq_some_iff : hexPair? high low = some octet ↔
    ∃ h l, hexValue? high = some h ∧ hexValue? low = some l ∧ octet = h * 16 + l := by
  simp only [hexPair?]
  split
  · next h l read_high read_low => simp [read_high, read_low, eq_comm]
  · next unread =>
    constructor
    · intro pair
      cases pair
    · rintro ⟨h, l, read_high, read_low, -⟩
      exact absurd read_low (unread h l read_high)

/-- Only two escapes write a slash. -/
theorem eq_of_hexPair?_slash (pair : hexPair? high low = some 0x2F) :
    high.toNat = 0x32 ∧ (low.toNat = 0x46 ∨ low.toNat = 0x66) := by
  obtain ⟨h, l, read_high, read_low, whole⟩ := hexPair?_eq_some_iff.mp pair
  have sum := congrArg UInt8.toNat whole
  simp only [UInt8.toNat_add, UInt8.toNat_mul, UInt8.reduceToNat] at sum
  have high_cases := hexValue?_cases read_high
  have low_cases := hexValue?_cases read_low
  omega

theorem toNat_lt_of_hexValue? (read : hexValue? octet = some value) : octet.toNat < 0x80 := by
  have := hexValue?_cases read
  omega

theorem WritesDigit.mem {value : Nat} (writes : WritesDigit digit value) :
    digit ∈ smallDigits ++ capitalDigits := by
  rcases writes with small | capital
  · exact List.mem_append_left _ (List.mem_of_getElem? small)
  · exact List.mem_append_right _ (List.mem_of_getElem? capital)

theorem WritesDigit.toNat_lt {value : Nat} (writes : WritesDigit digit value) :
    digit.toNat < 0x80 := by
  have ascii : (smallDigits ++ capitalDigits).all (fun digit => digit.toNat < 0x80) = true := by decide
  simpa using List.all_eq_true.mp ascii digit writes.mem

theorem WritesDigit.hexValue? {value : Nat} (writes : WritesDigit digit value) :
    Text.hexValue? (UInt8.ofNat digit.toNat) = some (UInt8.ofNat value) := by
  have small_values : ∀ value : Fin 16,
      Text.hexValue? (UInt8.ofNat smallDigits[value].toNat) = some (UInt8.ofNat value) := by decide
  have capital_values : ∀ value : Fin 16,
      Text.hexValue? (UInt8.ofNat capitalDigits[value].toNat) = some (UInt8.ofNat value) := by decide
  rcases writes with small | capital
  · obtain ⟨within, rfl⟩ := List.getElem?_eq_some_iff.mp small
    exact small_values ⟨value, within⟩
  · obtain ⟨within, rfl⟩ := List.getElem?_eq_some_iff.mp capital
    exact capital_values ⟨value, within⟩

theorem hexPair?_of_writesDigit {first second : Char}
    (writes_high : WritesDigit first (octet.toNat / 16))
    (writes_low : WritesDigit second (octet.toNat % 16)) :
    hexPair? (UInt8.ofNat first.toNat) (UInt8.ofNat second.toNat) = some octet := by
  refine hexPair?_eq_some_iff.mpr ⟨_, _, writes_high.hexValue?, writes_low.hexValue?, ?_⟩
  have small : octet.toNat < 256 := octet.toNat_lt
  refine UInt8.toNat_inj.mp ?_
  simp only [UInt8.toNat_add, UInt8.toNat_mul, UInt8.toNat_ofNat', UInt8.reduceToNat]
  omega

end Digits

section Decoding

variable {front rest : Bytes} {octet : UInt8}

theorem utf8EncodeChar_percent : String.utf8EncodeChar '%' = [0x25] := by
  decide

theorem percentDecode_cons_of_ne (plain : octet ≠ 0x25) (rest : Bytes) :
    percentDecode (octet :: rest) = octet :: percentDecode rest := by
  match rest with
  | [] => rfl
  | [_] => rfl
  | _ :: _ :: _ => rw [percentDecode, if_neg plain]

theorem percentDecode_append_of_not_mem (plain : 0x25 ∉ front) (rest : Bytes) :
    percentDecode (front ++ rest) = front ++ percentDecode rest := by
  induction front with
  | nil => rfl
  | cons octet front ih =>
    rw [List.mem_cons, not_or] at plain
    rw [List.cons_append, percentDecode_cons_of_ne (Ne.symm plain.1), ih plain.2]
    rfl

theorem percentDecode_escape {high low : UInt8} (pair : hexPair? high low = some octet)
    (rest : Bytes) : percentDecode (0x25 :: high :: low :: rest) = octet :: percentDecode rest := by
  rw [percentDecode, if_pos rfl, pair]

/-- A percent sign begins an escape or stands for itself. -/
theorem percentDecode_percent (rest : Bytes) :
    percentDecode (0x25 :: rest) = 0x25 :: percentDecode rest ∨
      ∃ high low octet rest', rest = high :: low :: rest' ∧ hexPair? high low = some octet ∧
        percentDecode (0x25 :: rest) = octet :: percentDecode rest' := by
  match rest with
  | [] => exact .inl rfl
  | [_] => exact .inl rfl
  | high :: low :: rest' =>
    cases pair : hexPair? high low with
    | none =>
      left
      rw [percentDecode, if_pos rfl, pair]
    | some octet => exact .inr ⟨high, low, octet, rest', rfl, pair, percentDecode_escape pair rest'⟩

/-- An escape in the octets of a text is one of the text. -/
theorem percentDecode_percent_text (rest : List Char) :
    percentDecode (0x25 :: rest.flatMap String.utf8EncodeChar) =
        0x25 :: percentDecode (rest.flatMap String.utf8EncodeChar) ∨
      ∃ first second rest' high low octet, rest = first :: second :: rest' ∧
        first.toNat = high.toNat ∧ second.toNat = low.toNat ∧ hexPair? high low = some octet ∧
        percentDecode (0x25 :: rest.flatMap String.utf8EncodeChar) =
          octet :: percentDecode (rest'.flatMap String.utf8EncodeChar) := by
  rcases percentDecode_percent (rest.flatMap String.utf8EncodeChar) with
    alone | ⟨high, low, octet, bytes, octets, pair, escape⟩
  · exact .inl alone
  · right
    obtain ⟨h, l, read_high, read_low, -⟩ := hexPair?_eq_some_iff.mp pair
    obtain ⟨first, behind, rfl, first_code, octets_behind⟩ :=
      exists_cons_of_utf8 octets (toNat_lt_of_hexValue? read_high)
    obtain ⟨second, rest', rfl, second_code, rfl⟩ :=
      exists_cons_of_utf8 octets_behind (toNat_lt_of_hexValue? read_low)
    exact ⟨first, second, rest', high, low, octet, rfl, first_code, second_code, pair, escape⟩

end Decoding

section Escaped

variable {kept : Char → Prop} {c : Char} {text written : List Char} {escapes : List (List Char)}

theorem percentDecode_escapes {octets rest : Bytes} (each : List.Forall₂ EscapeOf octets escapes) :
    percentDecode (escapes.flatten.flatMap String.utf8EncodeChar ++ rest) =
      octets ++ percentDecode rest := by
  induction each with
  | nil => rfl
  | @cons octet escape octets escapes writes _ ih =>
    cases writes with
    | mk writes_high writes_low =>
      simp only [List.flatten_cons, List.cons_append, List.nil_append, List.flatMap_cons,
        utf8EncodeChar_percent, utf8EncodeChar_of_lt writes_high.toNat_lt,
        utf8EncodeChar_of_lt writes_low.toNat_lt]
      rw [percentDecode_escape (hexPair?_of_writesDigit writes_high writes_low), ih]

theorem percent_not_mem_utf8EncodeChar (other : c ≠ '%') : 0x25 ∉ String.utf8EncodeChar c :=
  not_mem_utf8EncodeChar '%' (by decide) other

theorem Escaped.percentDecode (escaped : Escaped kept text written) (signs : ¬ kept '%') :
    Text.percentDecode (written.flatMap String.utf8EncodeChar) =
      text.flatMap String.utf8EncodeChar := by
  induction escaped with
  | nil => rfl
  | @keep c text written keeps _ ih =>
    have other : c ≠ '%' := by
      rintro rfl
      exact signs keeps
    rw [List.flatMap_cons, List.flatMap_cons,
      percentDecode_append_of_not_mem (percent_not_mem_utf8EncodeChar other), ih]
  | escape each _ ih => rw [List.flatMap_append, List.flatMap_cons, percentDecode_escapes each, ih]

/-- A text is read again from all its escaped forms. -/
theorem Escaped.percentDecoded? (escaped : Escaped kept text written) (signs : ¬ kept '%') :
    Text.percentDecoded? (String.ofList written) = some (String.ofList text) := by
  rw [Text.percentDecoded?, utf8_ofList, escaped.percentDecode signs, ← utf8_ofList, ofUtf8?_utf8]

theorem Escaped.refl (keeps : ∀ c ∈ text, kept c) : Escaped kept text text := by
  induction text with
  | nil => exact .nil
  | cons c text ih =>
    obtain ⟨here, later⟩ := List.forall_mem_cons.mp keeps
    exact .keep here (ih later)

theorem mem_of_mem_escapes {octets : Bytes} (each : List.Forall₂ EscapeOf octets escapes)
    (member : c ∈ escapes.flatten) : c ∈ '%' :: (smallDigits ++ capitalDigits) := by
  induction each with
  | nil => cases member
  | cons writes _ ih =>
    rw [List.flatten_cons, List.mem_append] at member
    rcases member with here | later
    · cases writes with
      | mk writes_high writes_low =>
        simp only [List.mem_cons, List.not_mem_nil, or_false] at here
        rcases here with rfl | rfl | rfl
        · exact List.mem_cons_self
        · exact List.mem_cons_of_mem _ writes_high.mem
        · exact List.mem_cons_of_mem _ writes_low.mem
    · exact ih later

/-- All that is not kept from the text is percent signs and digits. -/
theorem Escaped.mem_cases (escaped : Escaped kept text written) (member : c ∈ written) :
    (c ∈ text ∧ kept c) ∨ c ∈ '%' :: (smallDigits ++ capitalDigits) := by
  induction escaped with
  | nil => cases member
  | keep keeps _ ih =>
    rcases List.mem_cons.mp member with rfl | later
    · exact .inl ⟨List.mem_cons_self, keeps⟩
    · exact (ih later).imp_left fun ⟨listed, keeps⟩ => ⟨List.mem_cons_of_mem _ listed, keeps⟩
  | escape each _ ih =>
    rcases List.mem_append.mp member with here | later
    · exact .inr (mem_of_mem_escapes each here)
    · exact (ih later).imp_left fun ⟨listed, keeps⟩ => ⟨List.mem_cons_of_mem _ listed, keeps⟩

end Escaped

end HttpRouting.Text
